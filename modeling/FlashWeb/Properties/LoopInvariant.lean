import FlashWeb.Properties.Entries
import FlashWeb.Properties.Standing
import FlashWeb.Properties.Timers

/-!
# The invariant of a loop

The joint invariant of a loop and its connections. The maps agree on every descriptor; nodes and
connections agree (`TimersOk`); connections with an owner have different descriptors; and each
connection is in one of three places: its `Init` is still queued, it is registered, or it has been
closed once and nothing holds it any more. While an event is handled its connection is between these
places, and what its callbacks still have to do leads back to one of them (`Leaves`). An operation
on one connection leaves the others alone (`Concerns`).
-/

namespace FlashWeb

open Lib

/-- The connection whose event is being handled. -/
def LoopPhase.current : LoopPhase → Option HttpId
  | .handling h => some h.id
  | _ => none

namespace EventLoop

variable (s : EventLoop)

/-! ## One connection -/

/-- Where a connection stands. -/
def standing (id : HttpId) : Standing := ⟨decide (s.Registered id), decide (s.Timed id)⟩

@[simp] theorem standing_registered (id : HttpId) :
    (s.standing id).registered = true ↔ s.Registered id := decide_eq_true_iff

@[simp] theorem standing_timed (id : HttpId) :
    (s.standing id).timed = true ↔ s.Timed id := decide_eq_true_iff

variable {s} in
theorem standing_congr {t : EventLoop} {id : HttpId} (hr : t.Registered id ↔ s.Registered id)
    (ht : t.Timed id ↔ s.Timed id) : t.standing id = s.standing id := by
  simp only [standing, hr, ht]

/-- What the invariant says about one connection. -/
structure View where
  standing : Standing
  http : Http
  closes : Nat

/-- The view of a connection. -/
def view (id : HttpId) : View := ⟨s.standing id, s.http id, s.closes id⟩

variable {s} in
theorem view_congr {t : EventLoop} {id : HttpId} (hr : t.Registered id ↔ s.Registered id)
    (ht : t.Timed id ↔ s.Timed id) (hh : t.http id = s.http id)
    (hc : t.closes id = s.closes id) : t.view id = s.view id := by
  rw [view, view, standing_congr hr ht, hh, hc]

variable {s} in
theorem standing_eq {id : HttpId} {st : Standing} (hr : s.Registered id ↔ st.registered = true)
    (ht : s.Timed id ↔ st.timed = true) : s.standing id = st := by
  simp only [standing, hr, ht, Bool.decide_eq_true]

/-- The step from `s` to `t` is the business of connection `id` only. -/
structure Concerns (s t : EventLoop) (id : HttpId) : Prop where
  fdOf : t.fdOf = s.fdOf
  accepted : t.accepted = s.accepted
  callbackList : t.callbackList = s.callbackList
  phase : t.phase = s.phase
  others : ∀ j, j ≠ id → t.view j = s.view j

end EventLoop

/-- `Init` is still queued. -/
structure EventLoop.View.Fresh (v : EventLoop.View) : Prop where
  standing : v.standing = ⟨false, false⟩
  http : v.http = Http.construct true
  closes : v.closes = 0

/-- `Init` has run, or not, and no event is being handled. -/
structure EventLoop.View.Rests (v : EventLoop.View) : Prop where
  gone : v.standing.timed = true → v.standing.registered = true
  live : v.standing.registered = true → v.http.Live
  unclosed : v.standing.registered = true → v.closes = 0
  once : v.closes ≤ 1

theorem EventLoop.View.rests_of_unheld {v : EventLoop.View} (hst : v.standing = ⟨false, false⟩)
    (hc : v.closes ≤ 1) : v.Rests where
  gone h := by simp [hst] at h
  live h := by simp [hst] at h
  unclosed h := by simp [hst] at h
  once := hc

/-! ## The whole loop -/

namespace EventLoop

/-- The maps, the nodes, and what was recorded of the maps. -/
structure TablesOk (wakeupFd : Fd) (s : EventLoop) : Prop where
  entries : EntriesOk wakeupFd s.fd2channel s.fd2http s.interest s.fdOf
  timers : TimersOk s.timerManager s.timer s.armed s.now
  adds : ∀ b ∈ s.adds, b = true
  dels : ∀ n ∈ s.dels, n = 1

/-- Connections with an owner are known and have different descriptors. -/
structure OwnersOk (wakeupFd : Fd) (s : EventLoop) : Prop where
  known : ∀ id, s.Owned id → id < s.accepted
  notWakeup : ∀ id, s.Owned id → s.fdOf id ≠ wakeupFd
  apart : ∀ id j, s.Owned id → s.Owned j → s.fdOf id = s.fdOf j → id = j
  /-- later numbers have not been closed -/
  unused : ∀ id, s.accepted ≤ id → s.closes id = 0

/-- The channels still to be dispatched are different and registered. -/
structure ActiveOk (s : EventLoop) (active : List Active) : Prop where
  nodup : (active.map Prod.fst).Nodup
  registered : ∀ id, .http id ∈ active.map Prod.fst → s.Registered id

/-- The connection of the event that is being handled. -/
structure HandlingOk (s : EventLoop) (h : Handling) : Prop where
  active : s.ActiveOk h.active
  later : .http h.id ∉ h.active.map Prod.fst
  started : h.id ∉ s.pending
  known : h.id < s.accepted
  http : s.Registered h.id → s.http h.id = (h.dispatch.run h.found).http
  unclosed : s.Registered h.id → s.closes h.id = 0
  once : s.closes h.id ≤ 1
  outcome : ∃ timed st, (s.standing h.id).follow h.todo = some st ∧
    Leaves h.dispatch h.found timed st

/-- What holds in each phase. -/
structure PhaseOk (s : EventLoop) : Prop where
  dispatching : ∀ active, s.phase = .dispatching active → s.ActiveOk active
  handling : ∀ h, s.phase = .handling h → s.HandlingOk h

theorem PhaseOk.of_dispatching {s : EventLoop} {active : List Active}
    (hp : s.phase = .dispatching active) (h : s.ActiveOk active) : s.PhaseOk := by
  refine ⟨fun active' ha => ?_, fun x hx => ?_⟩
  · rw [hp] at ha
    cases ha
    exact h
  · rw [hp] at hx
    cases hx

theorem PhaseOk.of_handling {s : EventLoop} {x : Handling} (hp : s.phase = .handling x)
    (h : s.HandlingOk x) : s.PhaseOk := by
  refine ⟨fun active ha => ?_, fun y hy => ?_⟩
  · rw [hp] at ha
    cases ha
  · rw [hp] at hy
    cases hy
    exact h

/-- The other phases leave nothing to show. -/
theorem PhaseOk.of_idle {s : EventLoop} (hd : ∀ active, s.phase ≠ .dispatching active)
    (hh : ∀ x, s.phase ≠ .handling x) : s.PhaseOk :=
  ⟨fun active ha => absurd ha (hd active), fun x hx => absurd hx (hh x)⟩

/-- The part of the invariant that does not depend on what is being handled. -/
structure BaseOk (wakeupFd : Fd) (s : EventLoop) : Prop where
  tables : s.TablesOk wakeupFd
  owners : s.OwnersOk wakeupFd
  fresh : ∀ id ∈ s.pending, (s.view id).Fresh
  pendingNodup : s.pending.Nodup

/-- **The invariant.** -/
structure Ok (wakeupFd : Fd) (s : EventLoop) : Prop extends BaseOk wakeupFd s where
  rests : ∀ id, s.phase.current ≠ some id → (s.view id).Rests
  phase : s.PhaseOk

/-! ## What each operation does -/

/-- An operation on connection `id` leaves it at `st`. -/
structure Performed (s t : EventLoop) (id : HttpId) (st : Standing) : Prop
    extends Concerns s t id where
  standing : t.standing id = st
  kept : t.Registered id → t.http id = s.http id ∧ t.closes id = s.closes id
  counted : t.closes id = s.closes id ∨ (s.Registered id ∧ t.closes id = s.closes id + 1)

variable {wakeupFd : Fd} {s : EventLoop} {id : HttpId}

theorem seperateTimer_spec (hT : s.TablesOk wakeupFd) (id : HttpId) :
    (s.seperateTimer id).TablesOk wakeupFd ∧
      s.Performed (s.seperateTimer id) id ⟨(s.standing id).registered, false⟩ := by
  have hnone : (∀ k, s.timer id = some k → ¬ s.timerManager.locks k) →
      s.TablesOk wakeupFd ∧ s.Performed s id ⟨(s.standing id).registered, false⟩ := by
    intro hk
    have hh : ¬ s.Timed id := hT.timers.not_holds hk
    refine ⟨hT, ⟨rfl, rfl, rfl, rfl, fun _ _ => rfl⟩, ?_, fun _ => ⟨rfl, rfl⟩, Or.inl rfl⟩
    exact standing_eq (s.standing_registered id).symm (by simp [hh])
  unfold seperateTimer
  cases hk : s.timer id with
  | none => exact hnone fun k h => by simp [hk] at h
  | some k =>
    dsimp only
    split
    · have hh := hT.timers.holds_clear hk
      refine ⟨⟨hT.entries, hT.timers.clear hk, hT.adds, hT.dels⟩,
        ⟨rfl, rfl, rfl, rfl, fun j hj => ?_⟩, ?_, fun _ => ⟨rfl, rfl⟩, Or.inl rfl⟩
      · exact view_congr Iff.rfl ((hh j).trans (and_iff_left hj)) rfl rfl
      · exact standing_eq (s.standing_registered id).symm
          ((hh id).trans ⟨fun h => absurd rfl h.2, fun h => Bool.noConfusion h⟩)
    · next hl =>
      refine hnone fun j hj => ?_
      rw [hk] at hj
      rwa [← Option.some.inj hj]

theorem epollModify_spec (hT : s.TablesOk wakeupFd) (hr : s.Registered id) (ht : ¬ s.Timed id)
    (events : EventMask) {timeout : Nat} (hpos : 0 < timeout) :
    (s.epollModify id events timeout).TablesOk wakeupFd ∧
      s.Performed (s.epollModify id events timeout) id ⟨true, true⟩ := by
  have howned : ∀ i a, ({ s with interest := i, armed := a } : EventLoop).Owned id :=
    fun _ _ => Or.inl hr
  have hh := TimersOk.holds_addTimerNode s.timerManager id timeout s.now
  unfold epollModify
  dsimp only [recordArming]
  rw [if_pos hpos, addTimer_http (howned _ _)]
  refine ⟨⟨hT.entries.modify (s.fdOf id) events, hT.timers.add timeout ht, hT.adds, hT.dels⟩,
    ⟨rfl, rfl, rfl, rfl, fun j hj => ?_⟩, ?_, fun _ => ⟨rfl, rfl⟩, Or.inl rfl⟩
  · exact view_congr Iff.rfl ((hh j).trans (or_iff_left hj)) rfl rfl
  · exact standing_eq ⟨fun _ => rfl, fun _ => hr⟩ ⟨fun _ => rfl, fun _ => (hh id).mpr (Or.inr rfl)⟩

theorem handleClose_spec (hT : s.TablesOk wakeupFd) (hr : s.Registered id) :
    (s.handleClose id).TablesOk wakeupFd ∧
      s.Performed (s.handleClose id) id ⟨false, (s.standing id).timed⟩ := by
  have hfd := hT.entries.of_https hr
  have hgone : ¬ (s.handleClose id).Registered id := by
    show Function.update s.fd2http (s.fdOf id) none (s.fdOf id) ≠ some (some id)
    simp
  refine ⟨⟨hT.entries.del (s.fdOf id), hT.timers, hT.adds, ?_⟩,
    ⟨rfl, rfl, rfl, rfl, fun j hj => ?_⟩, ?_, fun h => absurd h hgone,
    Or.inr ⟨hr, Function.update_self ..⟩⟩
  · show ∀ n ∈ s.dels ++ [if (s.fd2channel (s.fdOf id)).isSome then 1 else 0], n = 1
    intro n hn
    rcases List.mem_append.mp hn with hn | hn
    · exact hT.dels n hn
    · simpa [hfd.2.2.1] using hn
  · refine view_congr ?_ Iff.rfl (Function.update_of_ne hj ..) (Function.update_of_ne hj ..)
    show Function.update s.fd2http (s.fdOf id) none (s.fdOf j) = some (some j) ↔
      s.fd2http (s.fdOf j) = some (some j)
    by_cases hf : s.fdOf j = s.fdOf id
    · have hother : s.fd2http (s.fdOf id) ≠ some (some j) := by
        rw [hr]
        simpa using hj.symm
      simp [hf, hother]
    · rw [Function.update_of_ne hf]
  · exact standing_eq ⟨fun h => absurd h hgone, fun h => Bool.noConfusion h⟩
      (s.standing_timed id).symm

/-- **A call on the loop does what `Effect.standing` says, to its own connection only.** -/
theorem perform_spec (hT : s.TablesOk wakeupFd) {e : Effect} {st : Standing}
    (he : e.standing (s.standing id) = some st) :
    (s.perform id e).TablesOk wakeupFd ∧ s.Performed (s.perform id e) id st := by
  have hquiet : s.standing id = st → s.TablesOk wakeupFd ∧ s.Performed s id st := fun h =>
    ⟨hT, ⟨rfl, rfl, rfl, rfl, fun _ _ => rfl⟩, h, fun _ => ⟨rfl, rfl⟩, Or.inl rfl⟩
  cases e with
  | seperateTimer =>
    rw [← Option.some.inj he]
    exact seperateTimer_spec hT id
  | updateEpoller events timeout =>
    obtain ⟨⟨hr, ht, hpos⟩, hst⟩ := Option.ite_none_right_eq_some.mp he
    rw [standing_registered] at hr
    have ht' : ¬ s.Timed id := by simpa [EventLoop.standing] using ht
    have hst' : st = ⟨true, true⟩ := by
      rw [← Option.some.inj hst]
      simp [EventLoop.standing, hr]
    rw [hst']
    exact epollModify_spec hT hr ht' events hpos
  | removeFromEpoller =>
    obtain ⟨hr, hst⟩ := Option.ite_none_right_eq_some.mp he
    rw [← Option.some.inj hst]
    exact handleClose_spec hT ((s.standing_registered id).mp hr)
  | process r ok => exact hquiet (Option.some.inj he)
  | malformed => exact hquiet (Option.some.inj he)
  | flush sent failed => exact hquiet (Option.some.inj he)
  | page errCode errMsg queued header body => exact hquiet (Option.some.inj he)

/-! ## Owners -/

theorem OwnersOk.mono {t : EventLoop} (h : s.OwnersOk wakeupFd) (hf : t.fdOf = s.fdOf)
    (ha : t.accepted = s.accepted) (ho : ∀ id, t.Owned id → s.Owned id)
    (hc : ∀ id, s.accepted ≤ id → t.closes id = s.closes id) : t.OwnersOk wakeupFd where
  known id hid := ha ▸ h.known id (ho id hid)
  notWakeup id hid := hf ▸ h.notWakeup id (ho id hid)
  apart id j hid hj he := h.apart id j (ho id hid) (ho j hj) (hf ▸ he)
  unused id hid := by
    rw [ha] at hid
    exact (hc id hid).trans (h.unused id hid)

theorem Concerns.pending {t : EventLoop} (h : s.Concerns t id) : t.pending = s.pending := by
  simp only [EventLoop.pending, h.phase, h.callbackList]

theorem Concerns.standing {t : EventLoop} (h : s.Concerns t id) {j : HttpId} (hj : j ≠ id) :
    t.standing j = s.standing j := congrArg View.standing (h.others j hj)

theorem Concerns.registered {t : EventLoop} (h : s.Concerns t id) {j : HttpId} (hj : j ≠ id) :
    t.Registered j ↔ s.Registered j := by
  rw [← standing_registered, h.standing hj, standing_registered]

theorem Concerns.http {t : EventLoop} (h : s.Concerns t id) {j : HttpId} (hj : j ≠ id) :
    t.http j = s.http j := congrArg View.http (h.others j hj)

theorem owned_iff (s : EventLoop) (id : HttpId) : s.Owned id ↔
    (s.standing id).registered = true ∨ (s.standing id).timed = true ∨ id ∈ s.pending := by
  rw [standing_registered, standing_timed]
  rfl

theorem Performed.owned {t : EventLoop} {st : Standing} (hp : s.Performed t id st)
    (hst : st.registered = true ∨ st.timed = true → s.Owned id) {j : HttpId} (hj : t.Owned j) :
    s.Owned j := by
  rw [owned_iff, hp.pending] at hj
  by_cases hji : j = id
  · subst hji
    rw [hp.standing] at hj
    rcases hj with hj | hj | hj
    · exact hst (Or.inl hj)
    · exact hst (Or.inr hj)
    · exact Or.inr (Or.inr hj)
  · rw [hp.toConcerns.standing hji] at hj
    exact (s.owned_iff j).mpr hj

theorem Performed.ownersOk {t : EventLoop} {st : Standing} (hp : s.Performed t id st)
    (hO : s.OwnersOk wakeupFd) (hst : st.registered = true ∨ st.timed = true → s.Owned id) :
    t.OwnersOk wakeupFd := by
  refine hO.mono hp.fdOf hp.accepted (fun j hj => hp.owned hst hj) fun j hj => ?_
  by_cases hji : j = id
  · subst hji
    rcases hp.counted with hc | ⟨hr, -⟩
    · exact hc
    · exact absurd (hO.known j (Or.inl hr)) (Nat.not_lt.mpr hj)
  · exact congrArg View.closes (hp.others j hji)

theorem Performed.activeOk {t : EventLoop} {st : Standing} (hp : s.Performed t id st)
    {active : List Active} (ha : s.ActiveOk active) (hid : .http id ∉ active.map Prod.fst) :
    t.ActiveOk active where
  nodup := ha.nodup
  registered j hj := by
    have hji : j ≠ id := by
      rintro rfl
      exact hid hj
    rw [← standing_registered, hp.toConcerns.standing hji, standing_registered]
    exact ha.registered j hj

end EventLoop

end FlashWeb
