import FlashWeb.Properties.Expiry
import FlashWeb.Properties.Progress
import FlashWeb.Properties.Refinement

/-!
# Idle connections are closed

A node stays in the queue, and holds its connection, until an event on the connection clears it or
`HandleExpire` drops it. `HandleExpire` ends only when no deadline is behind the clock, and it ends
again and again. So a connection on which nothing happens any more is closed, if the clock does not
start again before the loop has come round.
-/

namespace FlashWeb

open Lib System

namespace EventLoop

variable {wakeupFd : Fd} {s t : EventLoop} {id : HttpId} {node : TimerNode} {a : LoopStep}

/-! ## What becomes of a node -/

/-- The node is in the queue and holds the connection, of which no event is being handled. -/
structure Counting (s : EventLoop) (id : HttpId) (node : TimerNode) : Prop where
  queued : node ∈ s.timerManager.timerNodeQueue
  data : node.data = some id
  idle : s.phase.current ≠ some id

/-- A connection that a node holds has not been closed. -/
theorem Counting.unclosed (h : s.Counting id node) (hok : s.Ok wakeupFd) : s.closes id = 0 := by
  have hrests := hok.rests id h.idle
  have htimed : s.Timed id := ⟨node, h.queued, h.data⟩
  exact hrests.unclosed (hrests.gone (by simpa [view] using htimed))

/-- The node of a connection is not the node that another connection's `timer_` points to. -/
theorem TablesOk.timer_ne (hT : s.TablesOk wakeupFd) (hn : node ∈ s.timerManager.timerNodeQueue)
    (hd : node.data = some id) {j : HttpId} (hj : j ≠ id) : s.timer j ≠ some node.id := by
  intro hk
  have hdj : node.data = some j := (hT.timers.linked node hn j).mpr hk
  exact hj (Option.some.inj (hdj.symm.trans hd))

theorem mem_addTimer (hn : node ∈ s.timerManager.timerNodeQueue) (channel : ChannelRef)
    (timeout : Nat) : node ∈ (s.addTimer channel timeout).timerManager.timerNodeQueue := by
  unfold addTimer
  split
  · exact (TimerManager.mem_addTimerNode _).mpr (Or.inl hn)
  · exact hn

theorem mem_init (hn : node ∈ s.timerManager.timerNodeQueue) (j : HttpId) :
    node ∈ (s.init j).timerManager.timerNodeQueue := by
  unfold init epollAdd
  dsimp only
  split
  · refine mem_addTimer ?_ _ _
    exact hn
  · exact hn

/-- What the event of a connection does to the queue leaves the nodes of the others there. -/
theorem mem_perform (hT : s.TablesOk wakeupFd) (hn : node ∈ s.timerManager.timerNodeQueue)
    (hd : node.data = some id) {j : HttpId} (hj : j ≠ id) (e : Effect) :
    node ∈ (s.perform j e).timerManager.timerNodeQueue := by
  cases e with
  | seperateTimer =>
    show node ∈ (s.seperateTimer j).timerManager.timerNodeQueue
    unfold seperateTimer
    split
    · next k hk =>
      split
      · refine TimerManager.mem_clearIn.mpr (Or.inr ⟨hn, fun hnode => ?_⟩)
        exact hT.timer_ne hn hd hj (hnode ▸ hk)
      · exact hn
    · exact hn
  | updateEpoller events timeout =>
    show node ∈ (s.epollModify j events timeout).timerManager.timerNodeQueue
    unfold epollModify
    dsimp only
    split
    · refine mem_addTimer ?_ _ timeout
      exact hn
    · exact hn
  | removeFromEpoller => exact hn
  | _ => exact hn

/-- **The node counts on, or `HandleExpire` drops it and closes its connection.** -/
theorem Counting.step (h : s.Counting id node) (hok : s.Ok wakeupFd) (hs : Steps wakeupFd s a t)
    (hev : s.event id a = none) :
    t.Counting id node ∨ (t.closes id = 1 ∧ t.phase.current ≠ some id) := by
  obtain ⟨hn, hd, hidle⟩ := h
  cases hs with
  | accept fd => exact Or.inl ⟨hn, hd, hidle⟩
  | tick ms => exact Or.inl ⟨hn, hd, hidle⟩
  | @begin j active d hp =>
    refine Or.inl ⟨hn, hd, fun hj => ?_⟩
    obtain rfl : j = id := Option.some.inj hj
    rw [event_begin hp, if_pos rfl] at hev
    simp at hev
  | @effect x e todo hp htodo =>
    have hx : x.id ≠ id := fun hx => hidle (by rw [hp]; exact congrArg some hx)
    exact Or.inl ⟨mem_perform hok.tables hn hd hx e, hd, fun hj => hx (Option.some.inj hj)⟩
  | @callback j batch hp => exact Or.inl ⟨mem_init hn j, hd, by simp [enter, LoopPhase.current]⟩
  | expire n hp htop =>
    have hcur : (s.expire n).phase.current ≠ some id := by
      rw [s.expire_phase n]
      exact hidle
    by_cases hid : node.id = n.id
    · -- the destructor of the node closes the connection
      obtain rfl := TimerManager.node_ext hn htop.1 hid
      refine Or.inr ⟨?_, hcur⟩
      have hc := Counting.unclosed ⟨hn, hd, hidle⟩ hok
      rw [expire_closes, hc, TimerNode.destruct, hd]
      simp
    · refine Or.inl ⟨?_, hd, hcur⟩
      rw [expire_timerManager]
      exact (TimerManager.mem_pop _).mpr ⟨hn, hid⟩
  | _ => exact Or.inl ⟨hn, hd, by simp [EventLoop.wait, enter, LoopPhase.current]⟩

/-- When `HandleExpire` ends, every deadline is ahead of the clock. -/
theorem Counting.ahead (h : s.Counting id node) (hs : Steps wakeupFd s .rest t) :
    clockMs s.now < node.expireTime := by
  cases hs with
  | rest hp hrest =>
    rcases hrest with hnil | ⟨n, htop, hover⟩
    · have hn := h.queued
      rw [hnil] at hn
      exact absurd hn List.not_mem_nil
    · have hn : ¬ n.expireTime ≤ clockMs s.now := fun hle => by
        rw [(n.isOver_iff s.now).mpr (Or.inl hle)] at hover
        exact Bool.noConfusion hover
      exact (Nat.lt_of_not_le hn).trans_le (htop.2 node h.queued)

/-! ## Every run -/

/--
**Idle connections are closed.** When a node holds a connection whose event is not being handled, no
event on the connection is begun from then on, and the clock stands at the deadline or past it as
long as the connection is open, then a loop that keeps taking steps closes the connection, once, and
nothing owns it any more.
-/
theorem idle_closed_in_time (run : (loops wakeupFd).Forever) (hfair : run.Fair LoopStep.Own) {n : ℕ}
    (hnode : (run.state n).Counting id node)
    (hidle : ∀ m, n ≤ m → (run.state m).event id (run.label m) = none)
    (hclock : ∀ m, n ≤ m → (run.state m).closes id = 0 →
      node.expireTime ≤ clockMs (run.state m).now) :
    ∃ m, n ≤ m ∧ (run.state m).closes id = 1 ∧ ¬ (run.state m).Owned id := by
  obtain ⟨m, hm, hrest⟩ := rests_again run hfair n
  have hstep : ∀ m, n ≤ m → (run.state m).Counting id node →
      (run.state (m + 1)).Counting id node ∨ ((run.state (m + 1)).closes id = 1 ∧
        (run.state (m + 1)).phase.current ≠ some id) := fun m hm h =>
    h.step (reachable_ok (run.reachable m)) (run.step m) (hidle m hm)
  have hkept := run.kept_until (P := fun s => s.Counting id node)
    (Q := fun s => s.closes id = 1 ∧ s.phase.current ≠ some id) hstep hnode hm
  rcases hkept with ⟨k, hk, hclosed, hcur⟩ | hcounting
  · refine ⟨k, hk, hclosed, fun howned => ?_⟩
    have hzero := ((owned_iff_not_closed (run.reachable k) hcur).mp howned).2
    rw [hclosed] at hzero
    exact Nat.one_ne_zero hzero
  · -- `HandleExpire` ends with the node in the queue
    have hahead := hcounting.ahead (hrest ▸ run.step m)
    have hbehind := hclock m hm (hcounting.unclosed (reachable_ok (run.reachable m)))
    exact absurd hahead (Nat.not_lt_of_le hbehind)

/-! ## A connection that is closed -/

theorem event_quiet (h : a.Quiet) : s.event id a = none := by
  cases a with
  | begin d => exact absurd rfl (h.2 d)
  | _ => rfl

theorem timedOut_forever :
    ∃ run : (loops 3).Forever, run.state 0 = timedOut ∧ ∀ n, (run.label n).Quiet := by
  have hrest : (timedOut.expire servingNode).timerManager.timerNodeQueue = [] ∨
      ∃ n, (timedOut.expire servingNode).timerManager.IsTop n ∧
        n.isOver (timedOut.expire servingNode).now = false := Or.inl rfl
  have hstart : Relation.TransGen ((loops 3).OwnStep LoopStep.Quiet) timedOut
      ((timedOut.expire servingNode).enter .polling) :=
    .tail (.single ⟨.expire servingNode, ⟨trivial, by simp⟩, timedOut_expire⟩)
      ⟨.rest, ⟨trivial, by simp⟩, Steps.rest rfl hrest⟩
  have hround : Relation.TransGen ((loops 3).OwnStep LoopStep.Quiet)
      ((timedOut.expire servingNode).enter .polling)
      ((timedOut.expire servingNode).enter .polling) :=
    woken_turn (s := (timedOut.expire servingNode).enter .polling) rfl
      (Nat.lt_of_sub_eq_succ rfl) rfl rfl rfl .refl hrest
  exact exists_forever_of_cycle timedOut_reachable hstart hround

/-- A connection to which nothing happens for three seconds. -/
theorem idle_closed_in_time_timedOut : ∃ run : (loops 3).Forever, run.state 0 = timedOut ∧
    ∃ m, (run.state m).closes 0 = 1 ∧ ¬ (run.state m).Owned 0 := by
  obtain ⟨run, hrun, hquiet⟩ := timedOut_forever
  have hnow : ∀ m, (run.state m).now = 3000 := by
    intro m
    induction m with
    | zero => rw [hrun]; rfl
    | succ m ih => exact (now_eq (run.step m) (hquiet m).1).trans ih
  have hnode : (run.state 0).Counting 0 servingNode := by
    rw [hrun]
    exact ⟨List.mem_singleton_self _, rfl, by simp [timedOut, enter, LoopPhase.current]⟩
  obtain ⟨m, -, hclosed, howned⟩ := idle_closed_in_time run (fair_of_quiet hquiet) hnode
    (fun m _ => event_quiet (hquiet m)) fun m _ _ => by rw [hnow m, clockMs_eq]; rfl
  exact ⟨run, hrun, m, hclosed, howned⟩

end EventLoop

end FlashWeb
