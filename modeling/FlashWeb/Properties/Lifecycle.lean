import FlashWeb.Properties.Registry
import Mathlib.Algebra.BigOperators.Group.Finset.Piecewise

/-!
# From `accept` to `close`

Connections are numbered in the order of their acceptance, and `Init` runs for them in that order,
once for each. From then on a connection is registered until it is closed, and with the last of its
owners `~Http` runs, which closes the descriptor. Between events that is at once: what has been
accepted is either still to be opened, or open, or closed for good, and the three add up.
-/

namespace FlashWeb

open Lib

namespace EventLoop

variable {wakeupFd : Fd} {s t : EventLoop} {id : HttpId}

/-- For how many connections `Init` has run. The first `EpollAdd` is that of the eventfd. -/
def inits (s : EventLoop) : Nat := s.adds.length - 1

/-- The connections whose descriptor no `~Http` has closed yet. -/
def undestroyed (s : EventLoop) : Finset HttpId := (Finset.range s.accepted).filter s.Owned

/-! ## The invariant -/

/-- Which connections are where. -/
structure Placed (s : EventLoop) : Prop where
  /-- the eventfd has been added -/
  added : s.adds.length = s.inits + 1
  inits_le : s.inits ≤ s.accepted
  queue : s.pending = List.range' s.inits (s.accepted - s.inits)
  opened : ∀ id < s.inits, s.closes id = 0 → s.Registered id
  closed : ∑ id ∈ Finset.range s.accepted, s.closes id = s.dels.length

/-- Only what the invariant speaks of matters. -/
theorem Placed.congr (h : s.Placed) (hadds : t.adds = s.adds) (hacc : t.accepted = s.accepted)
    (hpend : t.pending = s.pending) (hfd : t.fdOf = s.fdOf) (hhttp : t.fd2http = s.fd2http)
    (hcl : t.closes = s.closes) (hdels : t.dels = s.dels) : t.Placed := by
  have hin : t.inits = s.inits := by rw [inits, hadds, inits]
  refine ⟨by rw [hadds, hin, h.added], by rw [hin, hacc]; exact h.inits_le,
    by rw [hpend, hin, hacc, h.queue], fun id hid hc => ?_, by rw [hacc, hcl, hdels, h.closed]⟩
  rw [hin] at hid
  rw [hcl] at hc
  rw [Registered, hhttp, hfd]
  exact h.opened id hid hc

theorem placed_construct (wakeupFd : Fd) (now : Nat) : (construct wakeupFd now).Placed where
  added := rfl
  inits_le := Nat.le_refl 0
  queue := rfl
  opened id hid := absurd hid (Nat.not_lt_zero id)
  closed := rfl

/-! ## Each step -/

theorem Placed.enter (h : s.Placed) {p : LoopPhase} (hpend : (s.enter p).pending = s.pending) :
    (s.enter p).Placed := h.congr rfl rfl hpend rfl rfl rfl rfl

/-- The new connection is the last one in the queue. -/
theorem Placed.accept (h : s.Placed) (hok : s.Ok wakeupFd) (fd : Fd) : (s.accept fd).Placed := by
  have hin : (s.accept fd).inits = s.inits := rfl
  refine ⟨h.added, Nat.le_succ_of_le h.inits_le, ?_, fun id hid hc => ?_, ?_⟩
  · rw [accept_pending, h.queue, hin]
    show _ = List.range' s.inits (s.accepted + 1 - s.inits)
    rw [Nat.succ_sub h.inits_le, List.range'_1_concat, Nat.add_sub_cancel' h.inits_le]
  · have hne : id ≠ s.accepted := (hid.trans_le h.inits_le).ne
    show s.fd2http ((s.accept fd).fdOf id) = some (some id)
    rw [accept_fdOf_ne fd hne]
    exact h.opened id hid hc
  · show ∑ id ∈ Finset.range (s.accepted + 1), s.closes id = s.dels.length
    rw [Finset.sum_range_succ, h.closed, hok.owners.unused _ (Nat.le_refl _), Nat.add_zero]

/-- `Init` runs for the first in the queue. -/
theorem Placed.callback (h : s.Placed) (hok : s.Ok wakeupFd) {batch : List HttpId}
    (hp : s.phase = .running (id :: batch)) : ((s.init id).enter (.running batch)).Placed := by
  have hpend : s.pending = id :: (batch ++ s.callbackList) := by simp [EventLoop.pending, hp]
  have hid : id ∈ s.pending := by simp [hpend]
  obtain ⟨-, hc, hst, -, hcl⟩ := init_spec hok.toBaseOk hid
  have hadds : (s.init id).adds.length = s.inits + 1 + 1 := by
    rw [init_eq hid]
    simp [h.added]
  have hin : ((s.init id).enter (.running batch)).inits = s.inits + 1 :=
    congrArg (· - 1) hadds
  -- the queue is not empty, so its first element is the number of the next `Init`
  have hlt : s.inits < s.accepted := by
    by_contra hge
    rw [h.queue, Nat.sub_eq_zero_of_le (Nat.le_of_not_lt hge)] at hid
    simp at hid
  have hqueue := h.queue
  rw [hpend, ← Nat.succ_pred_eq_of_pos (Nat.sub_pos_of_lt hlt), List.range'_succ,
    List.cons.injEq] at hqueue
  obtain ⟨rfl, hrest⟩ := hqueue
  have hpend' : ((s.init s.inits).enter (.running batch)).pending = batch ++ s.callbackList :=
    congrArg (batch ++ ·) hc.callbackList
  have hacc : ((s.init s.inits).enter (.running batch)).accepted = s.accepted := hc.accepted
  refine ⟨by rw [hin]; exact hadds, by rw [hin, hacc]; exact hlt, ?_, fun j hj hcj => ?_, ?_⟩
  · rw [hpend', hrest, hin, hacc, Nat.pred_eq_sub_one, Nat.sub_sub]
  · rw [hin] at hj
    show (s.init s.inits).Registered j
    rw [← standing_registered]
    by_cases hji : j = s.inits
    · rw [hji, hst]
    · rw [hc.standing hji, standing_registered]
      refine h.opened j (by omega) ?_
      rwa [← show (s.init s.inits).closes j = s.closes j from congrFun hcl j]
  · rw [hacc]
    show ∑ id ∈ _, (s.init s.inits).closes id = (s.init s.inits).dels.length
    rw [hcl, h.closed, init_eq hid]

/-- A close is counted in both places. -/
theorem Placed.handleClose (h : s.Placed) (hT : s.TablesOk wakeupFd) (hr : s.Registered id)
    (hid : id < s.accepted) : (s.handleClose id).Placed := by
  obtain ⟨-, hperf⟩ := handleClose_spec hT hr
  refine ⟨h.added, h.inits_le, h.queue, fun j hj hc => ?_, ?_⟩
  · have hji : j ≠ id := by
      rintro rfl
      have hcl : Function.update s.closes j (s.closes j + 1) j = 0 := hc
      simp at hcl
    have hcl : s.closes j = 0 := (Function.update_of_ne hji ..).symm.trans hc
    exact (hperf.toConcerns.registered hji).mpr (h.opened j hj hcl)
  · show ∑ j ∈ Finset.range s.accepted, Function.update s.closes id (s.closes id + 1) j =
      (s.dels ++ [_]).length
    have hmem : id ∈ Finset.range s.accepted := Finset.mem_range.mpr hid
    rw [Finset.sum_update_of_mem hmem, List.length_append, ← h.closed,
      Finset.sum_eq_add_sum_sdiff_singleton_of_mem hmem s.closes]
    simp only [List.length_cons, List.length_nil]
    omega

/-- Of the calls on the loop only `RemoveFromEpoller` changes what the invariant speaks of. -/
theorem Placed.perform (h : s.Placed) (hT : s.TablesOk wakeupFd) (hid : id < s.accepted)
    {e : Effect} {st : Standing} (he : e.standing (s.standing id) = some st) :
    (s.perform id e).Placed := by
  cases e with
  | seperateTimer =>
    show (s.seperateTimer id).Placed
    unfold seperateTimer
    split
    · split
      · exact h.congr rfl rfl rfl rfl rfl rfl rfl
      · exact h
    · exact h
  | updateEpoller events timeout =>
    show (s.epollModify id events timeout).Placed
    unfold epollModify addTimer
    dsimp only
    split
    · split <;> exact h.congr rfl rfl rfl rfl rfl rfl rfl
    · exact h.congr rfl rfl rfl rfl rfl rfl rfl
  | removeFromEpoller =>
    obtain ⟨hr, -⟩ := Option.ite_none_right_eq_some.mp he
    exact h.handleClose hT ((s.standing_registered id).mp hr) hid
  | process r ok => exact h
  | malformed => exact h
  | flush sent failed => exact h
  | page errCode errMsg queued header body => exact h

theorem Placed.expire (h : s.Placed) (hok : s.Ok wakeupFd) (hp : s.phase = .expiring)
    {n : TimerNode} (hn : n ∈ s.timerManager.timerNodeQueue) : (s.expire n).Placed := by
  have hpop : ({ s with timerManager := s.timerManager.pop n } : EventLoop).Placed :=
    h.congr rfl rfl rfl rfl rfl rfl rfl
  unfold EventLoop.expire
  cases hd : n.data with
  | none => exact hpop
  | some id =>
    have hr := hok.registered_of_data hp hn hd
    exact hpop.handleClose (pop_spec hok.tables hn).1 hr (hok.owners.known id (Or.inl hr))

/-- **Every step keeps the invariant.** -/
theorem Placed.step (h : s.Placed) (hok : s.Ok wakeupFd) {a : LoopStep}
    (hs : Steps wakeupFd s a t) : t.Placed := by
  cases hs with
  | accept fd => exact h.accept hok fd
  | tick ms => exact h.congr rfl rfl rfl rfl rfl rfl rfl
  | wait returned hp =>
    exact h.congr rfl rfl (by simp [EventLoop.pending, EventLoop.wait, hp]) rfl rfl rfl rfl
  | wakeup hp => exact h.enter (by simp [EventLoop.pending, EventLoop.enter, hp])
  | begin d hp =>
    exact h.congr rfl rfl (by simp [EventLoop.pending, EventLoop.begin, hp]) rfl rfl rfl rfl
  | @effect x e todo hp htodo =>
    have hx := hok.phase.handling x hp
    obtain ⟨timed, st, hf, -⟩ := hx.outcome
    rw [htodo, Standing.follow_cons, Option.bind_eq_some_iff] at hf
    obtain ⟨mid, he, -⟩ := hf
    have hphase := (perform_spec hok.tables he).2.phase
    refine (h.perform hok.tables hx.known he).enter ?_
    simp [EventLoop.pending, EventLoop.enter, hphase, hp]
  | handled hp => exact h.enter (by simp [EventLoop.pending, EventLoop.enter, hp])
  | swap hp => exact h.congr rfl rfl (by simp [EventLoop.pending, hp]) rfl rfl rfl rfl
  | callback hp => exact h.callback hok hp
  | ran hp => exact h.enter (by simp [EventLoop.pending, EventLoop.enter, hp])
  | expire n hp htop => exact h.expire hok hp htop.1
  | rest hp => exact h.enter (by simp [EventLoop.pending, EventLoop.enter, hp])

/-! ## Every run -/

theorem reachable_placed (h : (loops wakeupFd).Reachable s) : s.Placed := by
  refine System.Reachable.invariant (I := Placed) (fun s hs => ?_)
    (fun s a t hr ih hs => ih.step (reachable_ok hr) hs) h
  obtain ⟨now, rfl⟩ := hs
  exact placed_construct wakeupFd now

/-- A connection that has not been closed is queued or registered. -/
theorem Placed.owned (h : s.Placed) (hid : id < s.accepted) (hc : s.closes id = 0) :
    s.Owned id := by
  by_cases hin : id < s.inits
  · exact Or.inl (h.opened id hin hc)
  · refine Or.inr (Or.inr ?_)
    rw [h.queue, List.mem_range'_1, Nat.add_sub_cancel' h.inits_le]
    exact ⟨Nat.le_of_not_lt hin, hid⟩

/-- A connection whose event is not being handled has an owner until it is closed. -/
theorem owned_iff_not_closed (h : (loops wakeupFd).Reachable s)
    (hcur : s.phase.current ≠ some id) :
    s.Owned id ↔ id < s.accepted ∧ s.closes id = 0 := by
  have hok := reachable_ok h
  refine ⟨fun ho => ⟨hok.owners.known id ho, ?_⟩, fun hid => (reachable_placed h).owned hid.1 hid.2⟩
  have hrest := hok.rests id hcur
  rcases ho with hr | ht | hp
  · exact hrest.unclosed ((s.standing_registered id).mpr hr)
  · exact hrest.unclosed (hrest.gone ((s.standing_timed id).mpr ht))
  · exact (hok.fresh id hp).closes

/--
**Where each connection is.** The queue of `Init` callbacks holds the connections that came in last,
in the order in which they came, and all of those before them have been opened. A connection is
registered from its `Init` until it is closed. Unless its event is being handled it has an owner
until it is closed, and none from then on.
-/
theorem lifecycle (h : (loops wakeupFd).Reachable s) :
    s.pending = List.range' s.inits (s.accepted - s.inits) ∧
      (∀ id, s.Registered id ↔ id < s.inits ∧ s.closes id = 0) ∧
      ∀ id, s.phase.current ≠ some id → (s.Owned id ↔ id < s.accepted ∧ s.closes id = 0) := by
  have hok := reachable_ok h
  have hp := reachable_placed h
  refine ⟨hp.queue, fun id => ⟨fun hr => ⟨?_, ?_⟩, fun hid => hp.opened id hid.1 hid.2⟩,
    fun id hcur => owned_iff_not_closed h hcur⟩
  · have hnp := hok.not_pending hr
    have hacc := hok.owners.known id (Or.inl hr)
    rw [hp.queue, List.mem_range'_1, Nat.add_sub_cancel' hp.inits_le] at hnp
    exact Nat.lt_of_not_le fun hle => hnp ⟨hle, hacc⟩
  · by_cases hcur : s.phase.current = some id
    · unfold LoopPhase.current at hcur
      split at hcur
      · next x hx =>
        obtain rfl := Option.some.inj hcur
        exact (hok.phase.handling x hx).unclosed hr
      · exact nomatch hcur
    · exact (hok.rests id hcur).unclosed ((s.standing_registered id).mpr hr)

/--
**Descriptors are conserved.** While no event is being handled, the connections whose descriptor is
open and the calls of `EpollDel` together are the connections that were accepted: what was closed is
destroyed, and nothing else is.
-/
theorem descriptors_conserved (h : (loops wakeupFd).Reachable s) (hidle : s.phase.current = none) :
    s.undestroyed.card + s.dels.length = s.accepted := by
  have hok := reachable_ok h
  have hcur : ∀ id, s.phase.current ≠ some id := fun id => by simp [hidle]
  have hone : ∀ id ∈ Finset.range s.accepted,
      (if s.Owned id then 1 else 0) + s.closes id = 1 := by
    intro id hid
    have hle := (hok.rests id (hcur id)).once
    have hiff := owned_iff_not_closed h (hcur id)
    by_cases ho : s.Owned id
    · rw [if_pos ho, (hiff.mp ho).2]
    · rw [if_neg ho, Nat.zero_add]
      have hne : s.closes id ≠ 0 := fun hc => ho (hiff.mpr ⟨Finset.mem_range.mp hid, hc⟩)
      have hle' : s.closes id ≤ 1 := hle
      omega
  rw [undestroyed, Finset.card_filter, ← (reachable_placed h).closed, ← Finset.sum_add_distrib,
    Finset.sum_congr rfl hone, ← Finset.card_eq_sum_ones, Finset.card_range]

/-- A connection that was closed by its timer. -/
theorem descriptors_conserved_timedOut :
    (timedOut.expire servingNode).undestroyed.card + (timedOut.expire servingNode).dels.length =
      1 := descriptors_conserved (timedOut_reachable.step timedOut_expire) rfl

/-- The same connection: it has been registered, and is not any more. -/
theorem lifecycle_timedOut :
    (timedOut.expire servingNode).pending = [] ∧ ¬ (timedOut.expire servingNode).Registered 0 ∧
      ¬ (timedOut.expire servingNode).Owned 0 := by
  obtain ⟨hq, hr, ho⟩ := lifecycle (timedOut_reachable.step timedOut_expire)
  have hclosed : (timedOut.expire servingNode).closes 0 ≠ 0 := by decide
  exact ⟨hq, fun h => hclosed ((hr 0).mp h).2,
    fun h => hclosed ((ho 0 fun hc => nomatch hc).mp h).2⟩

end EventLoop

end FlashWeb
