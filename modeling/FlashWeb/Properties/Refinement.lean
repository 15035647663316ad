import FlashWeb.Lib.Simulation
import FlashWeb.Properties.HalfClose
import FlashWeb.Properties.Registry
import FlashWeb.Properties.Workers

/-!
# A loop is its connections side by side

Seen from one connection, a run of its loop is a run of that connection alone: the events of the
others, the timers, the queue of callbacks and the accepting thread do not show. `Mirrors` relates
the loop to the session; the events that the loop begins on the connection are the steps of the
session, and no other step of the loop is one. So what holds of every run of a session holds of
every connection of every loop.
-/

namespace FlashWeb

open Lib

namespace EventLoop

variable {wakeupFd : Fd} {s : EventLoop} {id : HttpId}

/-! ## What is seen of a step -/

/-- The event on a connection that a step begins. -/
def event (id : HttpId) (s : EventLoop) : LoopStep → Option Dispatch
  | .begin d =>
    match s.phase with
    | .dispatching ((.http j, _) :: _) => if j = id then some d else none
    | _ => none
  | _ => none

theorem event_begin {j : HttpId} {d : Dispatch} {active : List Active}
    (hp : s.phase = .dispatching ((.http j, d.active) :: active)) :
    s.event id (.begin d) = if j = id then some d else none := by
  simp only [event, hp]

/-- The calls on the loop that the connection's event still has to make. -/
def todo (s : EventLoop) (id : HttpId) : List Effect :=
  match s.phase with
  | .handling x => if x.id = id then x.todo else []
  | _ => []

/-- The channels that still have to be dispatched. -/
def active (s : EventLoop) : List Active :=
  match s.phase with
  | .dispatching active => active
  | .handling x => x.active
  | _ => []

/-! ## The relation -/

/-- The session `t` is the connection `id`, as far as its loop has carried out what it asked for. -/
structure Mirrors (id : HttpId) (s : EventLoop) (t : Session) : Prop where
  /-- `Init` has not run yet -/
  opened : s.accepted ≤ id ∨ id ∈ s.pending → t = Session.opened true
  http : s.Registered id → s.http id = t.http
  interest : s.Registered id → ∃ mask, s.interest (s.fdOf id) = some mask ∧
    (s.todo id).foldl Effect.interest mask = t.interest
  reportable : ∀ events, (.http id, events) ∈ s.active → t.interest.Reportable events

/-- A step that is not the connection's business, and after which nothing else is to be done. -/
theorem Mirrors.of_same {u : EventLoop} {t : Session} (h : s.Mirrors id t)
    (hacc : u.accepted = s.accepted) (hpend : u.pending = s.pending)
    (hreg : u.Registered id → s.Registered id)
    (hhttp : u.Registered id → u.http id = s.http id)
    (hint : u.Registered id → u.interest (u.fdOf id) = s.interest (s.fdOf id))
    (htodo : u.todo id = s.todo id) (hact : ∀ a ∈ u.active, a ∈ s.active) : u.Mirrors id t where
  opened hu := h.opened (by rwa [hacc, hpend] at hu)
  http hr := (hhttp hr).trans (h.http (hreg hr))
  interest hr := by
    rw [hint hr, htodo]
    exact h.interest (hreg hr)
  reportable events he := h.reportable events (hact _ he)

theorem Mirrors.enter {t : Session} (h : s.Mirrors id t) {p : LoopPhase}
    (hpend : (s.enter p).pending = s.pending) (htodo : (s.enter p).todo id = s.todo id)
    (hact : ∀ a ∈ (s.enter p).active, a ∈ s.active) : (s.enter p).Mirrors id t :=
  h.of_same rfl hpend (fun hr => hr) (fun _ => rfl) (fun _ => rfl) htodo hact

/-! ## Steps that begin no event -/

theorem addTimer_interest (channel : ChannelRef) (timeout : Nat) :
    (s.addTimer channel timeout).interest = s.interest := by
  unfold addTimer
  split <;> rfl

/-- `EpollModify` gives the descriptor another mask. -/
theorem epollModify_interest (events : EventMask) (timeout : Nat) (fd : Fd) :
    (s.epollModify id events timeout).interest fd =
      if fd = s.fdOf id then (s.interest fd).map fun _ => events else s.interest fd := by
  have hput : (if (s.interest (s.fdOf id)).isSome then
      Function.update s.interest (s.fdOf id) (some events) else s.interest) fd =
        if fd = s.fdOf id then (s.interest fd).map fun _ => events else s.interest fd := by
    by_cases hfd : fd = s.fdOf id
    · subst hfd
      cases hi : s.interest (s.fdOf id) <;> simp [hi]
    · split <;> simp [hfd]
  unfold epollModify
  dsimp only
  split
  · rw [addTimer_interest]
    exact hput
  · exact hput

theorem seperateTimer_interest : (s.seperateTimer id).interest = s.interest := by
  unfold seperateTimer
  split
  · split <;> rfl
  · rfl

/-- A call on the loop that leaves the connection registered puts in the mask that it names. -/
theorem perform_interest {e : Effect} {mask : EventMask} (he : (s.perform id e).Registered id)
    (hm : s.interest (s.fdOf id) = some mask) :
    (s.perform id e).interest (s.fdOf id) = some (e.interest mask) := by
  cases e with
  | seperateTimer => rwa [show (s.perform id .seperateTimer) = s.seperateTimer id from rfl,
      seperateTimer_interest]
  | updateEpoller events timeout =>
    show (s.epollModify id events timeout).interest _ = _
    rw [epollModify_interest, if_pos rfl, hm]
    rfl
  | removeFromEpoller =>
    have hgone : Function.update s.fd2http (s.fdOf id) none (s.fdOf id) = some (some id) := he
    simp at hgone
  | process r ok => exact hm
  | malformed => exact hm
  | flush sent failed => exact hm
  | page errCode errMsg queued header body => exact hm

/-- It leaves every other descriptor alone. -/
theorem perform_interest_ne (e : Effect) {fd : Fd} (hfd : fd ≠ s.fdOf id) :
    (s.perform id e).interest fd = s.interest fd := by
  cases e with
  | seperateTimer => exact congrFun seperateTimer_interest fd
  | updateEpoller events timeout =>
    show (s.epollModify id events timeout).interest fd = _
    rw [epollModify_interest, if_neg hfd]
  | removeFromEpoller => exact Function.update_of_ne hfd ..
  | process r ok => rfl
  | malformed => rfl
  | flush sent failed => rfl
  | page errCode errMsg queued header body => rfl

/-! ## Each step -/

/-- Two registered connections, or one and a queued one, have different descriptors. -/
theorem Ok.fdOf_ne (h : s.Ok wakeupFd) {j : HttpId} (hid : s.Owned id) (hj : s.Owned j)
    (hne : id ≠ j) : s.fdOf id ≠ s.fdOf j := fun hf => hne (h.owners.apart id j hid hj hf)

theorem Mirrors.accept {t : Session} (hs : s.Ok wakeupFd) (h : s.Mirrors id t) (fd : Fd) :
    (s.accept fd).Mirrors id t := by
  by_cases hid : id = s.accepted
  · have hreg : ¬ (s.accept fd).Registered id := hid ▸ accept_not_registered hs
    exact ⟨fun _ => h.opened (Or.inl hid.ge), fun hr => absurd hr hreg, fun hr => absurd hr hreg,
      h.reportable⟩
  · have hfd := accept_fdOf_ne (s := s) fd hid
    have hreg : (s.accept fd).Registered id → s.Registered id := fun hr => by
      have hr' : s.fd2http ((s.accept fd).fdOf id) = some (some id) := hr
      rwa [hfd] at hr'
    refine ⟨fun hu => h.opened ?_, fun hr => ?_, fun hr => ?_, h.reportable⟩
    · rw [accept_pending, List.mem_append, List.mem_singleton] at hu
      rcases hu with hu | hu | hu
      · exact Or.inl (Nat.le_of_succ_le hu)
      · exact Or.inr hu
      · exact absurd hu hid
    · exact (Function.update_of_ne hid ..).trans (h.http (hreg hr))
    · rw [hfd]
      exact h.interest (hreg hr)

/-- The kernel reports what the session listens for. -/
theorem Mirrors.wait {t : Session} (hs : s.Ok wakeupFd) (h : s.Mirrors id t)
    {returned : List (Fd × EventMask)} (hp : s.phase = .polling)
    (hr : ∀ r ∈ returned, ∃ mask, s.interest r.1 = some mask ∧ mask.Reportable r.2) :
    (s.wait returned).Mirrors id t := by
  have hchan : ∀ r ∈ returned, ∃ c, s.fd2channel r.1 = some (some c) := by
    intro r hrr
    obtain ⟨mask, hm, -⟩ := hr r hrr
    exact hs.tables.entries.channel_of_interest (by rw [hm]; rfl)
  have htodo : s.todo id = [] := by simp [todo, hp]
  refine ⟨fun hu => h.opened ?_, h.http, fun hreg => ?_, fun events he => ?_⟩
  · simpa [EventLoop.wait, EventLoop.pending, hp] using hu
  · have hint := h.interest hreg
    rwa [htodo] at hint
  · have hact : (s.wait returned).active = (epollWait s.fd2channel returned).2 := rfl
    rw [hact, epollWait_eq s.fd2channel returned hchan] at he
    obtain ⟨r, hrr, hr'⟩ := List.mem_filterMap.mp he
    obtain ⟨c, hc, heq⟩ := Option.map_eq_some_iff.mp hr'
    obtain ⟨rfl, rfl⟩ := Prod.mk.inj heq
    obtain ⟨hfd, hhttp⟩ := hs.tables.entries.of_channel (Option.join_eq_some_iff.mp hc)
    obtain ⟨mask, hm, hrep⟩ := hr r hrr
    have hreg : s.Registered id := by rwa [← hfd] at hhttp
    obtain ⟨mask', hm', hfold⟩ := h.interest hreg
    rw [htodo, List.foldl_nil] at hfold
    rw [hfd, hm, Option.some.injEq] at hm'
    rwa [← hfold, ← hm']

/-- **The loop begins an event on the connection: the session takes a step.** -/
theorem Mirrors.begin {t : Session} (hs : s.Ok wakeupFd) (h : s.Mirrors id t) {d : Dispatch}
    {active : List Active} (hp : s.phase = .dispatching ((.http id, d.active) :: active)) :
    sessions.step t d (t.dispatch d) ∧ (s.begin id d active).Mirrors id (t.dispatch d) := by
  have hact := hs.phase.dispatching _ hp
  have hreg : s.Registered id := hact.registered id (List.mem_cons_self ..)
  have hlive := hs.live (by simp [hp, LoopPhase.current]) hreg
  have hhttp := h.http hreg
  obtain ⟨mask, hm, hfold⟩ := h.interest hreg
  have htodo : s.todo id = [] := by simp [todo, hp]
  rw [htodo, List.foldl_nil] at hfold
  have hrep : t.interest.Reportable d.active :=
    h.reportable d.active (by simp [EventLoop.active, hp])
  refine ⟨⟨hhttp ▸ hlive.notClosed, hrep, rfl⟩, ⟨fun hu => ?_, fun _ => ?_, fun _ => ?_, ?_⟩⟩
  · -- a connection with an event has been registered
    rcases hu with hu | hu
    · exact absurd (hs.owners.known id (Or.inl hreg)) (Nat.not_lt.mpr hu)
    · refine absurd ?_ (hs.not_pending hreg)
      simpa [EventLoop.pending, EventLoop.begin, hp] using hu
  · show Function.update s.http id _ id = _
    rw [Function.update_self, hhttp]
    rfl
  · refine ⟨mask, hm, ?_⟩
    have htrace : (s.begin id d active).todo id = (d.run (s.http id)).trace := if_pos rfl
    rw [htrace, hhttp, hfold]
    rfl
  · intro events he
    refine absurd ?_ (List.nodup_cons.mp hact.nodup).1
    exact List.mem_map.mpr ⟨_, he, rfl⟩

/-- The loop begins an event on another connection. -/
theorem Mirrors.begin_ne {t : Session} (h : s.Mirrors id t) {j : HttpId} {d : Dispatch}
    {active : List Active} (hp : s.phase = .dispatching ((.http j, d.active) :: active))
    (hj : j ≠ id) : (s.begin j d active).Mirrors id t := by
  refine h.of_same rfl ?_ (fun hr => hr) (fun _ => Function.update_of_ne hj.symm ..)
    (fun _ => rfl) ?_ fun a ha => ?_
  · simp [EventLoop.pending, EventLoop.begin, hp]
  · simp [todo, EventLoop.begin, hp, hj]
  · have ha' : a ∈ active := ha
    simpa [EventLoop.active, hp] using Or.inr ha'

/-- A call on the loop is carried out. -/
theorem Mirrors.effect {t : Session} (hs : s.Ok wakeupFd) (h : s.Mirrors id t) {x : Handling}
    {e : Effect} {todo : List Effect} (hp : s.phase = .handling x) (htodo : x.todo = e :: todo) :
    ((s.perform x.id e).enter (.handling { x with todo := todo })).Mirrors id t := by
  have hx := hs.phase.handling x hp
  obtain ⟨timed, st, hf, -⟩ := hx.outcome
  rw [htodo, Standing.follow_cons, Option.bind_eq_some_iff] at hf
  obtain ⟨mid, he, -⟩ := hf
  obtain ⟨-, hperf⟩ := perform_spec hs.tables he
  have hpend : ((s.perform x.id e).enter (.handling { x with todo := todo })).pending =
      s.pending := by
    rw [← hperf.pending]
    simp [EventLoop.pending, EventLoop.enter, hperf.phase, hp]
  have hacc : ((s.perform x.id e).enter (.handling { x with todo := todo })).accepted =
      s.accepted := hperf.accepted
  have hactive : ∀ a ∈ x.active, a ∈ s.active := by
    intro a ha
    rwa [EventLoop.active, hp]
  by_cases hid : id = x.id
  · subst hid
    have hreg : (s.perform x.id e).Registered x.id → s.Registered x.id := fun hr => by
      rw [← standing_registered]
      refine Effect.standing_registered he ?_
      rw [← hperf.standing, standing_registered]
      exact hr
    refine ⟨fun hu => h.opened ?_, fun hr => ?_, fun hr => ?_,
      fun events ha => h.reportable events (hactive _ ha)⟩
    · rwa [hacc, hpend] at hu
    · exact (hperf.kept hr).1.trans (h.http (hreg hr))
    · obtain ⟨mask, hm, hfold⟩ := h.interest (hreg hr)
      refine ⟨e.interest mask, ?_, ?_⟩
      · show (s.perform x.id e).interest ((s.perform x.id e).fdOf x.id) = _
        rw [hperf.fdOf]
        exact perform_interest hr hm
      · rw [← hfold]
        simp [EventLoop.todo, EventLoop.enter, hp, htodo]
  · have hreg := hperf.toConcerns.registered hid
    refine h.of_same hacc hpend hreg.mp (fun _ => hperf.toConcerns.http hid) (fun hr => ?_) ?_
      hactive
    · show (s.perform x.id e).interest ((s.perform x.id e).fdOf id) = _
      rw [hperf.fdOf]
      by_cases hrx : s.Registered x.id
      · exact perform_interest_ne e (hs.fdOf_ne (Or.inl (hreg.mp hr)) (Or.inl hrx) hid)
      · -- a connection that was closed makes no call that needs its descriptor
        cases e with
        | updateEpoller events timeout =>
          obtain ⟨⟨hr', -⟩, -⟩ := Option.ite_none_right_eq_some.mp he
          exact absurd ((s.standing_registered x.id).mp hr') hrx
        | removeFromEpoller =>
          obtain ⟨hr', -⟩ := Option.ite_none_right_eq_some.mp he
          exact absurd ((s.standing_registered x.id).mp hr') hrx
        | seperateTimer => exact congrFun seperateTimer_interest _
        | process r ok => rfl
        | malformed => rfl
        | flush sent failed => rfl
        | page errCode errMsg queued header body => rfl
    · have hxid : x.id ≠ id := fun hx' => hid hx'.symm
      simp [EventLoop.todo, EventLoop.enter, hp, hxid]

/-- `Init` opens the session. -/
theorem Mirrors.callback {t : Session} (hs : s.Ok wakeupFd) (h : s.Mirrors id t) {j : HttpId}
    {batch : List HttpId} (hp : s.phase = .running (j :: batch)) :
    ((s.init j).enter (.running batch)).Mirrors id t := by
  have hpend : s.pending = j :: (batch ++ s.callbackList) := by simp [EventLoop.pending, hp]
  have hj : j ∈ s.pending := by simp [hpend]
  obtain ⟨-, hc, -⟩ := init_spec hs.toBaseOk hj
  have hpend' : ((s.init j).enter (.running batch)).pending = batch ++ s.callbackList :=
    congrArg (batch ++ ·) hc.callbackList
  have htodo : s.todo id = [] := by simp [todo, hp]
  obtain ⟨-, -, hnone⟩ := hs.tables.entries.absent
    (hs.owners.notWakeup j (Or.inr (Or.inr hj))) (hs.toBaseOk.free hj)
  have hint : (s.init j).interest = Function.update s.interest (s.fdOf j)
      (some EventMask.inEt) := by
    rw [init_eq hj]
    exact if_pos (by rw [hnone]; rfl)
  have hopen : (s.init j).accepted ≤ id ∨ id ∈ ((s.init j).enter (.running batch)).pending →
      t = Session.opened true := fun hu => h.opened <| by
    rw [hc.accepted, hpend'] at hu
    exact hu.imp_right fun hm => hpend ▸ List.mem_cons_of_mem _ hm
  have hfdOf : ((s.init j).enter (.running batch)).fdOf = s.fdOf := hc.fdOf
  by_cases hid : id = j
  · subst hid
    have ht := h.opened (Or.inr hj)
    refine ⟨hopen, fun _ => ?_, fun _ => ⟨EventMask.inEt, ?_, ?_⟩, fun events he => ?_⟩
    · show (s.init id).http id = t.http
      rw [init_eq hj, ht]
      show Function.update s.http id _ id = _
      rw [Function.update_self, show s.http id = Http.construct true from (hs.fresh id hj).http]
      rfl
    · rw [hfdOf]
      show (s.init id).interest (s.fdOf id) = _
      rw [hint, Function.update_self]
    · rw [ht]
      rfl
    · exact absurd he List.not_mem_nil
  · have hreg := hc.registered hid
    refine ⟨hopen, fun hr => (hc.http hid).trans (h.http (hreg.mp hr)), fun hr => ?_,
      fun events he => absurd he List.not_mem_nil⟩
    obtain ⟨mask, hm, hfold⟩ := h.interest (hreg.mp hr)
    refine ⟨mask, ?_, ?_⟩
    · rw [hfdOf]
      show (s.init j).interest (s.fdOf id) = _
      rw [hint, Function.update_of_ne
        (hs.fdOf_ne (Or.inl (hreg.mp hr)) (Or.inr (Or.inr hj)) hid), hm]
    · rw [htodo] at hfold
      exact hfold

/-- A timer that has run out closes its connection, or was cleared before. -/
theorem Mirrors.expire {t : Session} (hs : s.Ok wakeupFd) (h : s.Mirrors id t) {n : TimerNode}
    (hp : s.phase = .expiring) (hn : n ∈ s.timerManager.timerNodeQueue) :
    (s.expire n).Mirrors id t := by
  cases hd : n.data with
  | none =>
    have heq : s.expire n = { s with timerManager := s.timerManager.pop n } := by
      unfold EventLoop.expire
      rw [hd]
    rw [heq]
    exact h.of_same rfl rfl (fun hr => hr) (fun _ => rfl) (fun _ => rfl) rfl fun a ha => ha
  | some j =>
    have hr := hs.registered_of_data hp hn hd
    obtain ⟨-, hperf⟩ := expire_spec hs.tables hn hd hr
    have hphase := hperf.phase
    have heq : s.expire n = ({ s with timerManager := s.timerManager.pop n }).handleClose j := by
      unfold EventLoop.expire
      rw [hd]
    have hgone : ¬ (s.expire n).Registered j := by
      rw [← standing_registered, hperf.standing]
      simp
    have hne : (s.expire n).Registered id → id ≠ j := by
      rintro hid rfl
      exact hgone hid
    refine h.of_same hperf.accepted hperf.pending (fun hid => ?_) (fun hid => ?_) (fun hid => ?_)
      ?_ fun a ha => ?_
    · exact (hperf.toConcerns.registered (hne hid)).mp hid
    · exact hperf.toConcerns.http (hne hid)
    · have hfd := hs.fdOf_ne (Or.inl ((hperf.toConcerns.registered (hne hid)).mp hid))
        (Or.inl hr) (hne hid)
      rw [hperf.fdOf, heq]
      exact Function.update_of_ne hfd ..
    · simp only [todo, hphase]
    · rwa [EventLoop.active, hphase] at ha

/-! ## Every run -/

/-- Before its `Init` a connection is the session that has just been opened. -/
theorem mirrors_construct (id : HttpId) (wakeupFd : Fd) (now : Nat) :
    (construct wakeupFd now).Mirrors id (Session.opened true) := by
  have hreg : ¬ (construct wakeupFd now).Registered id := fun hr =>
    absurd ((ok_construct wakeupFd now).owners.known id (Or.inl hr)) (Nat.not_lt_zero id)
  exact ⟨fun _ => rfl, fun hr => absurd hr hreg, fun hr => absurd hr hreg,
    fun events he => absurd he List.not_mem_nil⟩

/-- **The events on a connection are the steps of a session, and nothing else shows.** -/
theorem mirrors_simulates (id : HttpId) :
    (loops wakeupFd).Simulates sessions (event id) (Mirrors id) where
  init s hs := by
    obtain ⟨now, rfl⟩ := hs
    exact ⟨Session.opened true, rfl, mirrors_construct id wakeupFd now⟩
  silent s a s' t hr h hs hsil := by
    have hok := reachable_ok hr
    cases hs with
    | accept fd => exact h.accept hok fd
    | tick ms => exact ⟨h.opened, h.http, h.interest, h.reportable⟩
    | wait returned hp _ _ hrep => exact h.wait hok hp hrep
    | @wakeup events active hp =>
      refine h.enter (by simp [EventLoop.pending, enter, hp]) (by simp [todo, enter, hp]) ?_
      intro a ha
      rw [EventLoop.active, hp]
      exact List.mem_cons_of_mem _ ha
    | @begin j active d hp =>
      rw [event_begin hp] at hsil
      have hj : j ≠ id := by simpa using hsil
      exact h.begin_ne hp hj
    | effect hp htodo => exact h.effect hok hp htodo
    | @handled x hp htodo =>
      refine h.enter (by simp [EventLoop.pending, enter, hp]) (by simp [todo, enter, hp, htodo]) ?_
      intro a ha
      rw [EventLoop.active, hp]
      exact ha
    | swap hp =>
      exact h.of_same rfl (by simp [EventLoop.pending, hp]) (fun hr => hr) (fun _ => rfl)
        (fun _ => rfl) (by simp [todo, hp]) fun a ha => absurd ha List.not_mem_nil
    | callback hp => exact h.callback hok hp
    | ran hp =>
      exact h.enter (by simp [EventLoop.pending, enter, hp]) (by simp [todo, enter, hp])
        fun a ha => absurd ha List.not_mem_nil
    | expire n hp htop => exact h.expire hok hp htop.1
    | rest hp =>
      exact h.enter (by simp [EventLoop.pending, enter, hp]) (by simp [todo, enter, hp])
        fun a ha => absurd ha List.not_mem_nil
  seen s a s' t d hr h hs hseen := by
    have hok := reachable_ok hr
    cases hs with
    | @begin j active d' hp =>
      rw [event_begin hp] at hseen
      obtain ⟨rfl, hd⟩ := Option.ite_none_right_eq_some.mp hseen
      obtain rfl := Option.some.inj hd
      exact ⟨_, h.begin hok hp⟩
    | _ => simp [event] at hseen

end EventLoop

/-- A session is what its events make of it. -/
theorem sessions_labelled {ds : List Dispatch} {t : Session} (h : sessions.Labelled ds t) :
    t = ds.foldl Session.dispatch (Session.opened true) := by
  induction h with
  | init h => exact h
  | step _ hs ih =>
    rw [hs.2.2, ih, Option.toList_some, List.foldl_append]
    rfl

namespace EventLoop

variable {wakeupFd : Fd} {s : EventLoop} {id : HttpId}

/-- With no event being handled, what is registered is what the session asks for. -/
theorem Mirrors.settled {t : Session} (h : Mirrors id s t) (hr : s.Registered id)
    (hcur : s.phase.current ≠ some id) : s.interest (s.fdOf id) = some t.interest := by
  obtain ⟨mask, hmask, hfold⟩ := h.interest hr
  have htodo : s.todo id = [] := by
    unfold todo
    split
    · next x hp => exact if_neg fun hx => hcur (by rw [hp, ← hx]; rfl)
    · rfl
  rw [htodo, List.foldl_nil] at hfold
  rw [hmask, hfold]

/--
**A loop does for each connection what the connection's own events ask for.** In every run, whatever
other connections, timers and callbacks the loop serves in between, the events begun on a connection
are the events of a session that ends where the connection is now, and the mask that `epoll_ctl` was
given for it last is the session's.
-/
theorem connection_runs_alone {events : List Dispatch}
    (h : (loops wakeupFd).Observed (event id) events s) :
    let t := events.foldl Session.dispatch (Session.opened true)
    sessions.Labelled events t ∧ (s.Registered id → s.http id = t.http) ∧
      (s.Registered id → s.phase.current ≠ some id →
        s.interest (s.fdOf id) = some t.interest) := by
  obtain ⟨t, ht, hm⟩ := (mirrors_simulates id).run h
  obtain rfl := sessions_labelled ht
  exact ⟨ht, hm.http, hm.settled⟩

/-- A connection that has just been opened, and the event that brings it a request. -/
theorem connection_runs_alone_plainRequest :
    let d := Dispatch.bringing .blank plainRequest
    let u := (serving.wait [(5, EventMask.inEt)]).begin 0 d []
    ∃ events : List Dispatch, let t := (events ++ [d]).foldl Session.dispatch (Session.opened true)
      sessions.Labelled (events ++ [d]) t ∧ u.http 0 = t.http := by
  intro d u
  obtain ⟨events, h⟩ := serving_reachable.observed (event 0)
  have hrep : EventMask.inEt.Reportable EventMask.inEt := by decide
  have hwait := h.step (serving_wait hrep)
  have hbegin := hwait.step (Steps.begin d rfl)
  rw [show event 0 serving (.wait [(5, EventMask.inEt)]) = none from rfl, Option.toList_none,
    List.append_nil] at hbegin
  obtain ⟨hrun, hhttp, -⟩ := connection_runs_alone hbegin
  exact ⟨events, hrun, hhttp rfl⟩

end EventLoop

end FlashWeb
