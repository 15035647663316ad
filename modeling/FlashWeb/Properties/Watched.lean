import FlashWeb.Properties.Refinement

/-!
# The connections of a server, watched

What is seen of one connection in a run of the server: the events that its worker begins on it, and
what its callbacks do for each. They are the events and the log of a session, and the connection is
in that session's state, whatever the other workers, connections and timers do in between.
-/

namespace FlashWeb

open Lib

/-! ## The masks of a session -/

/-- What is open listens for one direction. -/
def Session.OneWay (s : Session) : Prop :=
  s.interest = EventMask.inEt ∨ s.interest = EventMask.outEt

/-- `HandleCurrentConn` passes on one of two masks, or none. -/
theorem Session.OneWay.dispatch {s : Session} (h : s.OneWay) (hl : s.http.Live) (d : Dispatch) :
    (s.dispatch d).OneWay := by
  unfold OneWay Session.dispatch
  dsimp only
  by_cases ha : d.active.epollhup ∧ ¬ d.active.epollin
  · rw [d.run_hup s.http ha]
    exact h
  · rw [d.run_eq s.http ha]
    have hint := beforeConn_interest d hl s.interest
    have hc := handleCurrentConn_concludes (d.beforeConn s.http)
    generalize handleCurrentConn (d.beforeConn s.http) = out at hc
    cases hc with
    | busy ms => simp [Conn.listen, List.foldl_append, Effect.interest]
    | idle => simp [Conn.listen, List.foldl_append, Effect.interest]
    | finished => simpa [OneWay, handleClose, List.foldl_append, Effect.interest, hint] using h
    | draining => simpa [OneWay, Conn.listen, List.foldl_append, Effect.interest, hint] using h
    | drained => simpa [OneWay, handleClose, List.foldl_append, Effect.interest, hint] using h
    | gone => simpa [OneWay, List.foldl_append, Effect.interest, hint] using h

theorem session_oneWay {s : Session} (h : sessions.Reachable s) : s.OneWay := by
  refine System.Reachable.invariant (I := Session.OneWay) (fun s hs => ?_)
    (fun s d t hr ih hs => ?_) h
  · rw [show s = Session.opened true from hs]
    exact Or.inl rfl
  · obtain ⟨hopen, -, rfl⟩ := hs
    exact ih.dispatch ((session_live hr).resolve_right hopen) d

/-! ## A connection of a loop -/

namespace EventLoop

variable {wakeupFd : Fd} {s : EventLoop} {id : HttpId}

/-- The event on a connection that a step begins, and what the callbacks do for it. -/
def handled (id : HttpId) (s : EventLoop) (a : LoopStep) : Option (Dispatch × List Effect) :=
  (s.event id a).map fun d => (d, (d.run (s.http id)).trace)

/-- A step of which something is seen begins an event. -/
theorem event_eq_some {a : LoopStep} {d : Dispatch} (h : s.event id a = some d) :
    ∃ events active, a = .begin d ∧ s.phase = .dispatching ((.http id, events) :: active) := by
  unfold event at h
  split at h
  · split at h
    · next hp =>
      obtain ⟨rfl, hd⟩ := Option.ite_none_right_eq_some.mp h
      exact ⟨_, _, congrArg _ (Option.some.inj hd), hp⟩
    · simp at h
  · simp at h

/-- What is seen of a connection is seen of its session. -/
theorem watched_of_handled {seen : List (Dispatch × List Effect)}
    (h : (loops wakeupFd).Observed (handled id) seen s) :
    ∃ t, sessions.Observed Session.watched seen t ∧ Mirrors id s t := by
  refine (mirrors_simulates id).watched (fun u a he => ?_) (fun u a v t d hr hm _ he => ?_) h
  · rw [handled, he]
    rfl
  · obtain ⟨events, active, -, hp⟩ := event_eq_some he
    have hact := (reachable_ok hr).phase.dispatching _ hp
    have hhttp := hm.http (hact.registered id (List.mem_cons_self ..))
    rw [handled, he, Option.map_some, hhttp]
    rfl

/-- **What the callbacks of a connection did is the log of its session.** -/
theorem log_of_handled {seen : List (Dispatch × List Effect)}
    (h : (loops wakeupFd).Observed (handled id) seen s) :
    ∃ t, sessions.Labelled (seen.map Prod.fst) t ∧ Mirrors id s t ∧
      t.log = (seen.map Prod.snd).flatten := by
  obtain ⟨t, ht, hm⟩ := watched_of_handled h
  obtain ⟨hlabelled, hlog⟩ := session_of_watched ht
  exact ⟨t, hlabelled, hm, hlog⟩

end EventLoop

/-! ## A connection of a server -/

namespace Server

variable {wakeupFd : Nat → Fd} {threadNum : Nat} {s : Server} {k : Nat} {id : HttpId}

/-- What is seen of the connection `id` of the worker `k`. -/
def handled (k : Nat) (id : HttpId) (s : Server) : ServerStep → Option (Dispatch × List Effect)
  | .worker j a => if j = k then EventLoop.handled id (s.threads k).loop a else none
  | _ => none

/-- **The run of a worker is a run of its loop.** -/
theorem worker_observed {seen : List (Dispatch × List Effect)}
    (h : (servers wakeupFd threadNum).Observed (handled k id) seen s) :
    (k < s.started →
      (loops (wakeupFd k)).Observed (EventLoop.handled id) seen (s.threads k).loop) ∧
      (s.started ≤ k → seen = []) := by
  induction h with
  | init hi =>
    obtain rfl := hi
    exact ⟨fun hk => absurd hk (Nat.not_lt_zero k), fun _ => rfl⟩
  | @step seen u v a hrun hs ih =>
    obtain ⟨hloop, hnone⟩ := ih
    have hok := ok_of_reachable hrun.reachable
    -- a step that leaves the loop as it is, and one of the loop's own
    have hsame : handled k id u a = none → v.started = u.started →
        (v.threads k).loop = (u.threads k).loop →
        (k < v.started → (loops (wakeupFd k)).Observed (EventLoop.handled id)
          (seen ++ (handled k id u a).toList) (v.threads k).loop) ∧
          (v.started ≤ k → seen ++ (handled k id u a).toList = []) := by
      intro hsil hst hl
      rw [hsil, Option.toList_none, List.append_nil, hst, hl]
      exact ⟨hloop, hnone⟩
    have hown : ∀ {j : Nat} {b : LoopStep} {l : EventLoop}, j < u.started →
        Steps (wakeupFd j) (u.threads j).loop b l →
        handled k id u a = (if j = k then EventLoop.handled id (u.threads k).loop b else none) →
        v.started = u.started → (v.threads k).loop = ((u.setLoop j l).threads k).loop →
        (k < v.started → (loops (wakeupFd k)).Observed (EventLoop.handled id)
          (seen ++ (handled k id u a).toList) (v.threads k).loop) ∧
          (v.started ≤ k → seen ++ (handled k id u a).toList = []) := by
      intro j b l hj hb hseen hst hl
      by_cases hjk : j = k
      · subst hjk
        rw [hl, hseen, if_pos rfl, hst, setLoop, setThread_self]
        exact ⟨fun hlt => (hloop hlt).step hb, fun hle => absurd hj (Nat.not_lt_of_le hle)⟩
      · refine hsame (hseen.trans (if_neg hjk)) hst ?_
        rw [hl, setLoop, setThread_ne _ _ (Ne.symm hjk)]
    cases hs with
    | spawn now hmain hlt =>
      rw [show handled k id u (.spawn now) = none from rfl, Option.toList_none, List.append_nil]
      by_cases hk : k = u.started
      · subst hk
        rw [hnone (Nat.le_refl _)]
        refine ⟨fun _ => .init ⟨now, ?_⟩, fun _ => rfl⟩
        simp [Server.spawn]
      · have hthread : (u.spawn (wakeupFd u.started) now).threads k = u.threads k :=
          setThread_ne _ _ hk
        rw [hthread]
        exact ⟨fun hlt => hloop (Nat.lt_of_le_of_ne (Nat.le_of_lt_succ hlt) hk),
          fun hle => hnone (Nat.le_of_succ_le hle)⟩
    | @runFunction j fd hmain hstep =>
      exact hown (hok.at hmain).1 hstep (by simp [handled, EventLoop.handled, EventLoop.event])
        rfl rfl
    | worker j hj _ _ hstep => exact hown hj hstep rfl rfl rfl
    | leave j hj _ _ _ =>
      refine hsame rfl rfl ?_
      by_cases hjk : k = j
      · subst hjk
        rw [setThread_self]
      · rw [setThread_ne _ _ hjk]
    | _ => exact hsame rfl rfl rfl

end Server

/-! ## A server with one connection -/

/-- The loop while the calls of an event are made one after the other. -/
def EventLoop.finish (h : Handling) : EventLoop → List Effect → EventLoop
  | s, [] => s.enter (.dispatching h.active)
  | s, e :: todo => finish h ((s.perform h.id e).enter (.handling { h with todo := todo })) todo

/-- The loop when it has waited and handled an event of its connection. -/
def EventLoop.handle (l : EventLoop) (d : Dispatch) : EventLoop :=
  finish ⟨0, d, l.http 0, [], []⟩ ((l.wait [(5, d.active)]).begin 0 d []) (d.run (l.http 0)).trace

/-- The loop behind the first event of its connection. -/
def EventLoop.behind (d : Dispatch) : EventLoop := serving.handle d

/-- The loop when it waits again, and no timer is over. -/
def EventLoop.rested (l : EventLoop) : EventLoop :=
  (({ l with callbackList := [], phase := .running [] } : EventLoop).enter .expiring).enter .polling

theorem EventLoop.behind_registered :
    (EventLoop.behind (.bringing .blank plainRequest)).Registered 0 := by decide

theorem EventLoop.behind_current :
    (EventLoop.behind (.bringing .blank plainRequest)).phase.current ≠ some 0 := by decide

theorem EventLoop.behind_fd :
    (EventLoop.behind (.bringing .blank plainRequest)).fdOf 0 = 5 := by decide

namespace Server

/-- The worker that the connection was given to takes a step. -/
theorem welcome_step {seen : List (Dispatch × List Effect)} {l l' : EventLoop} {a : LoopStep}
    (h : (servers (fun _ => 3) 1).Observed (handled 0 0) seen (listening.welcome.setLoop 0 l))
    (hs : Steps 3 l a l') (ha : ∀ fd, a ≠ .accept fd) :
    (servers (fun _ => 3) 1).Observed (handled 0 0) (seen ++ (EventLoop.handled 0 l a).toList)
      (listening.welcome.setLoop 0 l') := by
  have hnext := h.step (ServerSteps.worker 0 Nat.one_pos rfl ha (t := l') hs)
  rwa [setLoop_setLoop] at hnext

/-- It takes one in which it begins no event. -/
theorem welcome_quiet {seen : List (Dispatch × List Effect)} {l l' : EventLoop} {a : LoopStep}
    (h : (servers (fun _ => 3) 1).Observed (handled 0 0) seen (listening.welcome.setLoop 0 l))
    (hs : Steps 3 l a l') (ha : ∀ fd, a ≠ .accept fd) (hnone : EventLoop.handled 0 l a = none) :
    (servers (fun _ => 3) 1).Observed (handled 0 0) seen (listening.welcome.setLoop 0 l') := by
  have hnext := welcome_step h hs ha
  rwa [hnone, Option.toList_none, List.append_nil] at hnext

/-- It carries out what an event asks for. -/
theorem welcome_finish {seen : List (Dispatch × List Effect)} :
    ∀ {todo : List Effect} {h : Handling} {l : EventLoop},
    (servers (fun _ => 3) 1).Observed (handled 0 0) seen (listening.welcome.setLoop 0 l) →
    l.phase = .handling { h with todo := todo } →
    (servers (fun _ => 3) 1).Observed (handled 0 0) seen
      (listening.welcome.setLoop 0 (EventLoop.finish h l todo))
  | [], h, l, hl, hp =>
    welcome_quiet hl (a := .handled) (Steps.handled (h := { h with todo := [] }) hp rfl) (by simp)
      rfl
  | e :: todo, h, l, hl, hp => by
    have hnext := welcome_quiet hl (Steps.effect (h := { h with todo := e :: todo }) hp rfl)
      (by simp) rfl
    rw [EventLoop.finish]
    exact welcome_finish (h := h) hnext rfl

/-- When the events are handled and nothing is queued it turns to its timers. -/
theorem welcome_ran {seen : List (Dispatch × List Effect)} {l : EventLoop}
    (h : (servers (fun _ => 3) 1).Observed (handled 0 0) seen (listening.welcome.setLoop 0 l))
    (hp : l.phase = .dispatching []) (hcb : l.callbackList = []) :
    (servers (fun _ => 3) 1).Observed (handled 0 0) seen (listening.welcome.setLoop 0
      (({ l with callbackList := [], phase := .running [] } : EventLoop).enter .expiring)) := by
  have hstep : Steps 3 l .swap _ := Steps.swap hp
  rw [hcb] at hstep
  have hswap := welcome_quiet h hstep (by simp) rfl
  exact welcome_quiet hswap (Steps.ran rfl) (by simp) rfl

/-- The rest of a turn in which only the timer set by `Init` is over. -/
theorem welcome_turn {seen : List (Dispatch × List Effect)} {l : EventLoop} {n : TimerNode}
    (h : (servers (fun _ => 3) 1).Observed (handled 0 0) seen (listening.welcome.setLoop 0 l))
    (hp : l.phase = .dispatching []) (hcb : l.callbackList = [])
    (htop : l.timerManager.IsTop EventLoop.servingNode.clearNode)
    (hnext : (l.timerManager.pop EventLoop.servingNode.clearNode).IsTop n)
    (hn : n.isOver l.now = false) :
    (servers (fun _ => 3) 1).Observed (handled 0 0) seen (listening.welcome.setLoop 0
      (((({ l with callbackList := [], phase := .running [] } : EventLoop).enter .expiring).expire
        EventLoop.servingNode.clearNode).enter .polling)) := by
  have hran := welcome_ran h hp hcb
  have hover := (TimerNode.isOver_iff EventLoop.servingNode.clearNode l.now).mpr (Or.inr rfl)
  have hexpire := welcome_quiet hran (Steps.expire EventLoop.servingNode.clearNode rfl htop hover)
    (by simp) rfl
  exact welcome_quiet hexpire (Steps.rest rfl (Or.inr ⟨n, hnext, hn⟩)) (by simp) rfl

/-- The rest of a turn in which no timer is over. -/
theorem welcome_rest {seen : List (Dispatch × List Effect)} {l : EventLoop} {n : TimerNode}
    (h : (servers (fun _ => 3) 1).Observed (handled 0 0) seen (listening.welcome.setLoop 0 l))
    (hp : l.phase = .dispatching []) (hcb : l.callbackList = [])
    (htop : l.timerManager.IsTop n) (hn : n.isOver l.now = false) :
    (servers (fun _ => 3) 1).Observed (handled 0 0) seen
      (listening.welcome.setLoop 0 l.rested) := by
  exact welcome_quiet (welcome_ran h hp hcb) (Steps.rest rfl (Or.inr ⟨n, htop, hn⟩)) (by simp) rfl

/-- It waits, and an event is begun. -/
theorem welcome_wait {seen : List (Dispatch × List Effect)} {l : EventLoop} {d : Dispatch}
    (h : (servers (fun _ => 3) 1).Observed (handled 0 0) seen (listening.welcome.setLoop 0 l))
    (hw : Steps 3 l (.wait [(5, d.active)]) (l.wait [(5, d.active)]))
    (hp : (l.wait [(5, d.active)]).phase = .dispatching [(.http 0, d.active)]) :
    (servers (fun _ => 3) 1).Observed (handled 0 0) (seen ++ [(d, (d.run (l.http 0)).trace)])
      (listening.welcome.setLoop 0 ((l.wait [(5, d.active)]).begin 0 d [])) := by
  have hwait := welcome_quiet h hw (by simp) rfl
  have hbegin := welcome_step hwait (Steps.begin d hp) (by simp)
  rw [EventLoop.handled, EventLoop.event_begin hp] at hbegin
  exact hbegin

/-- It waits, and an event is handled. -/
theorem welcome_handle {seen : List (Dispatch × List Effect)} {l : EventLoop} {d : Dispatch}
    (h : (servers (fun _ => 3) 1).Observed (handled 0 0) seen (listening.welcome.setLoop 0 l))
    (hw : Steps 3 l (.wait [(5, d.active)]) (l.wait [(5, d.active)]))
    (hp : (l.wait [(5, d.active)]).phase = .dispatching [(.http 0, d.active)]) :
    (servers (fun _ => 3) 1).Observed (handled 0 0) (seen ++ [(d, (d.run (l.http 0)).trace)])
      (listening.welcome.setLoop 0 (l.handle d)) :=
  welcome_finish (h := ⟨0, d, l.http 0, [], []⟩) (welcome_wait h hw hp) rfl

/-- Before its first event nothing is done for the connection that comes in. -/
theorem welcome_handled : (servers (fun _ => 3) 1).Observed (handled 0 0) []
    (listening.welcome.setLoop 0 EventLoop.serving) := by
  have h0 : (servers (fun _ => 3) 1).Observed (handled 0 0) [] (Server.construct 1) := .init rfl
  have h1 := h0.step (ServerSteps.spawn 0 rfl Nat.one_pos)
  have h2 := h1.step (ServerSteps.getLoop rfl rfl)
  have h3 := h2.step (ServerSteps.listen rfl (Nat.lt_irrefl 1))
  have h4 := h3.step (ServerSteps.wait true rfl (Nat.succ_pos 4))
  have h5 := h4.step (@ServerSteps.accept (fun _ => 3) _ 0 poolOfOne 5 rfl (Nat.succ_pos 4) rfl)
  have h6 := h5.step (@ServerSteps.runFunction (fun _ => 3) _ 0 5 rfl
    (Steps.accept 5 (by decide) fun id hid => absurd hid (free_construct id)))
  have h7 : (servers (fun _ => 3) 1).Observed (handled 0 0) []
      (listening.welcome.setLoop 0 (listening.welcome.threads 0).loop) := by
    rw [setLoop_self]
    exact h6
  have h8 := welcome_quiet h7 (Steps.wait [] rfl (Nat.succ_pos 4) List.nodup_nil
    fun r hr => absurd hr List.not_mem_nil) (by simp) rfl
  have h9 := welcome_quiet h8 (Steps.swap rfl) (by simp) rfl
  have h10 := welcome_quiet h9 (Steps.callback rfl) (by simp) rfl
  have h11 := welcome_quiet h10 (Steps.ran rfl) (by simp) rfl
  exact welcome_quiet h11 (Steps.rest rfl (Or.inr ⟨EventLoop.servingNode, by decide, by decide⟩))
    (by simp) rfl

/-- Its first event. -/
theorem welcome_begin (d : Dispatch) (hrep : EventMask.inEt.Reportable d.active) :
    ∃ seen u, (servers (fun _ => 3) 1).Observed (handled 0 0) seen u ∧ 0 < u.started ∧
      seen.map Prod.fst = [d] ∧
      (u.threads 0).loop = (EventLoop.serving.wait [(5, d.active)]).begin 0 d [] := by
  have hwait := welcome_step welcome_handled (EventLoop.serving_wait hrep) (by simp)
  have hbegin := welcome_step hwait (Steps.begin d rfl) (by simp)
  exact ⟨_, _, hbegin, Nat.one_pos, rfl, rfl⟩

/-- Its first event is handled. -/
theorem welcome_event (d : Dispatch) (hrep : EventMask.inEt.Reportable d.active) :
    (servers (fun _ => 3) 1).Observed (handled 0 0)
      [(d, (d.run (EventLoop.serving.http 0)).trace)]
      (listening.welcome.setLoop 0 (EventLoop.behind d)) :=
  welcome_handle welcome_handled (EventLoop.serving_wait hrep) rfl

/-! ## Every connection is a session -/

/--
**Every connection of every worker is a session.** However the main thread and the workers take
turns, the events begun on a connection are the events of a session, and what its callbacks did is
that session's log. While the connection is registered it is in the session's state; between its
events it takes events, its descriptor has the session's mask, and the mask asks for one direction.
-/
theorem connections_are_sessions {wakeupFd : Nat → Fd} {threadNum : Nat} {s : Server} {k : Nat}
    {id : HttpId} {seen : List (Dispatch × List Effect)}
    (h : (servers wakeupFd threadNum).Observed (handled k id) seen s) (hk : k < s.started) :
    let t := (seen.map Prod.fst).foldl Session.dispatch (Session.opened true)
    let l := (s.threads k).loop
    sessions.Labelled (seen.map Prod.fst) t ∧ t.log = (seen.map Prod.snd).flatten ∧
      (l.Registered id → l.http id = t.http) ∧
      (l.Registered id → l.phase.current ≠ some id →
        t.http.Live ∧ l.interest (l.fdOf id) = some t.interest ∧
          (t.interest = EventMask.inEt ∨ t.interest = EventMask.outEt)) := by
  have hloop := (worker_observed h).1 hk
  obtain ⟨t, ht, hm, hlog⟩ := EventLoop.log_of_handled hloop
  obtain rfl := sessions_labelled ht
  refine ⟨ht, hlog, hm.http, fun hr hcur => ?_⟩
  have hlive := (EventLoop.reachable_ok hloop.reachable).live hcur hr
  exact ⟨hm.http hr ▸ hlive, hm.settled hr hcur, session_oneWay ht.reachable⟩

/-- A connection behind the event that brought it a request. -/
theorem connections_are_sessions_welcome :
    ∃ seen u t, (servers (fun _ => 3) 1).Observed (handled 0 0) seen u ∧
      seen.map Prod.fst = [.bringing .blank plainRequest] ∧
      sessions.Labelled [.bringing .blank plainRequest] t ∧
      t.log = (seen.map Prod.snd).flatten ∧ (u.threads 0).loop.http 0 = t.http ∧ t.http.Live ∧
      (u.threads 0).loop.interest 5 = some t.interest := by
  obtain ⟨seen, u, hrun, hstarted, hseen, hloop⟩ : ∃ seen u,
      (servers (fun _ => 3) 1).Observed (handled 0 0) seen u ∧ 0 < u.started ∧
      seen.map Prod.fst = [.bringing .blank plainRequest] ∧
      (u.threads 0).loop = EventLoop.behind (.bringing .blank plainRequest) :=
    ⟨_, _, welcome_event (.bringing .blank plainRequest) (by decide), Nat.one_pos, rfl, rfl⟩
  obtain ⟨hlabelled, hlog, hhttp, hbetween⟩ := connections_are_sessions hrun hstarted
  have hregistered : (u.threads 0).loop.Registered 0 := by
    rw [hloop]
    exact EventLoop.behind_registered
  have hcurrent : (u.threads 0).loop.phase.current ≠ some 0 := by
    rw [hloop]
    exact EventLoop.behind_current
  obtain ⟨hlive, hmask, -⟩ := hbetween hregistered hcurrent
  have hfd : (u.threads 0).loop.fdOf 0 = 5 := by
    rw [hloop]
    exact EventLoop.behind_fd
  exact ⟨seen, u, _, hrun, hseen, hseen ▸ hlabelled, hlog, hhttp hregistered, hlive, hfd ▸ hmask⟩

end Server

end FlashWeb
