import FlashWeb.EventLoop

/-!
# Which node belongs to which connection

`timer_` is a weak pointer that is overwritten whenever a node is added, so a node that is forgotten
without being cleared would close its connection later on. `TimersOk` says that this has not
happened: a node holds a connection exactly if the connection's `timer_` points to it. Adding a
node keeps that up only if the connection has none.
-/

namespace FlashWeb

/-- The arming that created a node, at some moment up to `now`. -/
structure Arming.Created (a : Arming) (n : TimerNode) (now : Nat) : Prop where
  node : a.node = n.id
  expireTime : n.expireTime = clockMs a.time + a.timeout
  past : a.time ≤ now

/-- Nodes and `timer_` pointers agree, and every node in use is from the last arming. -/
structure TimersOk (m : TimerManager) (timer : HttpId → Option NodeId)
    (armed : HttpId → Option Arming) (now : Nat) : Prop where
  linked : ∀ n ∈ m.timerNodeQueue, ∀ id, n.data = some id ↔ timer id = some n.id
  below : ∀ id k, timer id = some k → k < m.created
  armed : ∀ n ∈ m.timerNodeQueue, ∀ id, n.data = some id →
    ∃ a, armed id = some a ∧ a.Created n now

namespace TimersOk

variable {m : TimerManager} {timer : HttpId → Option NodeId} {armed : HttpId → Option Arming}
  {now : Nat}

theorem empty (timer : HttpId → Option NodeId) (h : ∀ id, timer id = none) :
    TimersOk TimerManager.empty timer armed now where
  linked n hn := nomatch hn
  below id k hk := by simp [h] at hk
  armed n hn := nomatch hn

/-- Time passes. -/
theorem tick (h : TimersOk m timer armed now) (ms : Nat) : TimersOk m timer armed (now + ms) where
  linked := h.linked
  below := h.below
  armed n hn id hd := by
    obtain ⟨a, ha, hc⟩ := h.armed n hn id hd
    exact ⟨a, ha, hc.node, hc.expireTime, Nat.le_add_right_of_le hc.past⟩

/-- At most one node holds a connection. -/
theorem unique (h : TimersOk m timer armed now) {n k : TimerNode} {id : HttpId}
    (hn : n ∈ m.timerNodeQueue) (hk : k ∈ m.timerNodeQueue) (hnd : n.data = some id)
    (hkd : k.data = some id) : n = k := by
  refine TimerManager.node_ext hn hk ?_
  have h1 := (h.linked n hn id).mp hnd
  have h2 := (h.linked k hk id).mp hkd
  exact Option.some.inj (h1.symm.trans h2)

/-! ## A new connection -/

/-- A connection whose number is new starts without a node. -/
theorem accept (h : TimersOk m timer armed now) {id : HttpId} (hid : ¬ m.Holds id) :
    TimersOk m (Function.update timer id none) armed now where
  linked n hn j := by
    by_cases hj : j = id
    · subst hj
      simpa using fun hd => hid ⟨n, hn, hd⟩
    · rw [Function.update_of_ne hj]
      exact h.linked n hn j
  below j k hk := by
    by_cases hj : j = id
    · simp [hj] at hk
    · rw [Function.update_of_ne hj] at hk
      exact h.below j k hk
  armed := h.armed

/-! ## AddTimerNode -/

/-- A connection that no node holds gets one. -/
theorem add (h : TimersOk m timer armed now) {id : HttpId} (timeout : Nat)
    (hid : ¬ m.Holds id) :
    TimersOk (m.addTimerNode id timeout now) (Function.update timer id (some m.created))
      (Function.update armed id (some ⟨m.created, now, timeout⟩)) now where
  linked n hn j := by
    -- an old node does not hold `id`, and the new one holds nothing else
    rcases (m.mem_addTimerNode).mp hn with hq | rfl
    · by_cases hj : j = id
      · subst hj
        rw [Function.update_self]
        constructor
        · intro hd
          exact absurd ⟨n, hq, hd⟩ hid
        · intro hk
          exact absurd (Option.some.inj hk) (Nat.ne_of_gt (m.below n hq))
      · rw [Function.update_of_ne hj]
        exact h.linked n hq j
    · by_cases hj : j = id
      · subst hj
        simp [TimerNode.construct]
      · rw [Function.update_of_ne hj]
        constructor
        · intro hd
          exact absurd (Option.some.inj hd).symm hj
        · intro hk
          exact absurd (h.below j _ hk) (Nat.lt_irrefl _)
  below j k hk := by
    by_cases hj : j = id
    · subst hj
      rw [Function.update_self] at hk
      exact Nat.lt_succ_of_le (Option.some.inj hk).ge
    · rw [Function.update_of_ne hj] at hk
      exact Nat.lt_succ_of_lt (h.below j k hk)
  armed n hn j hd := by
    rcases (m.mem_addTimerNode).mp hn with hq | rfl
    · have hj : j ≠ id := by
        rintro rfl
        exact hid ⟨n, hq, hd⟩
      rw [Function.update_of_ne hj]
      exact h.armed n hq j hd
    · obtain rfl : id = j := Option.some.inj hd
      exact ⟨_, Function.update_self .., rfl, rfl, le_rfl⟩

theorem holds_addTimerNode (m : TimerManager) (id : HttpId) (timeout now : Nat) (j : HttpId) :
    (m.addTimerNode id timeout now).Holds j ↔ m.Holds j ∨ j = id := by
  constructor
  · rintro ⟨n, hn, hd⟩
    rcases (m.mem_addTimerNode).mp hn with hn | rfl
    · exact Or.inl ⟨n, hn, hd⟩
    · exact Or.inr (Option.some.inj hd).symm
  · rintro (⟨n, hn, hd⟩ | rfl)
    · exact ⟨n, (m.mem_addTimerNode).mpr (Or.inl hn), hd⟩
    · exact ⟨_, (m.mem_addTimerNode).mpr (Or.inr rfl), rfl⟩

/-! ## ClearNode -/

/-- `seperateTimer` on a connection whose `timer_` is still there. -/
theorem clear (h : TimersOk m timer armed now) {id : HttpId} {k : NodeId}
    (hk : timer id = some k) :
    TimersOk (m.clear k) (Function.update timer id none) armed now where
  linked n hn j := by
    -- the node that is cleared held `id`; the others held something else
    rcases TimerManager.mem_clearIn.mp hn with ⟨p, hp, hpk, rfl⟩ | ⟨hn, hnk⟩
    · have hpd : p.data = some id := (h.linked p hp id).mpr (hpk ▸ hk)
      refine ⟨fun hd => (nomatch hd), fun hj => ?_⟩
      by_cases hji : j = id
      · simp [hji] at hj
      · rw [Function.update_of_ne hji] at hj
        have : p.data = some j := (h.linked p hp j).mpr hj
        exact absurd (Option.some.inj (this.symm.trans hpd)) hji
    · by_cases hji : j = id
      · subst hji
        rw [h.linked n hn j, hk, Function.update_self]
        exact ⟨fun he => absurd (Option.some.inj he).symm hnk, fun he => (nomatch he)⟩
      · rw [Function.update_of_ne hji]
        exact h.linked n hn j
  below j i hi := by
    by_cases hj : j = id
    · simp [hj] at hi
    · rw [Function.update_of_ne hj] at hi
      exact h.below j i hi
  armed n hn j hd := by
    rcases TimerManager.mem_clearIn.mp hn with ⟨p, hp, -, rfl⟩ | ⟨hn, -⟩
    · exact nomatch hd
    · exact h.armed n hn j hd

theorem holds_clear (h : TimersOk m timer armed now) {id : HttpId} {k : NodeId}
    (hk : timer id = some k) (j : HttpId) : (m.clear k).Holds j ↔ m.Holds j ∧ j ≠ id := by
  constructor
  · rintro ⟨n, hn, hd⟩
    rcases TimerManager.mem_clearIn.mp hn with ⟨p, hp, -, rfl⟩ | ⟨hn, hnk⟩
    · exact nomatch hd
    · refine ⟨⟨n, hn, hd⟩, ?_⟩
      rintro rfl
      exact hnk (Option.some.inj (((h.linked n hn j).mp hd).symm.trans hk))
  · rintro ⟨⟨n, hn, hd⟩, hj⟩
    refine ⟨n, TimerManager.mem_clearIn.mpr (Or.inr ⟨hn, ?_⟩), hd⟩
    rintro rfl
    exact hj (Option.some.inj (hd.symm.trans ((h.linked n hn id).mpr hk)))

/-- A `timer_` that cannot be locked belongs to a connection that no node holds. -/
theorem not_holds (h : TimersOk m timer armed now) {id : HttpId}
    (hk : ∀ k, timer id = some k → ¬ m.locks k) : ¬ m.Holds id := by
  rintro ⟨n, hn, hd⟩
  exact hk n.id ((h.linked n hn id).mp hd) ⟨n, hn, rfl⟩

/-! ## pop -/

/-- A node is dropped. -/
theorem pop (h : TimersOk m timer armed now) (n : TimerNode) :
    TimersOk (m.pop n) timer armed now where
  linked k hk := h.linked k ((m.mem_pop).mp hk).1
  below := h.below
  armed k hk := h.armed k ((m.mem_pop).mp hk).1

theorem holds_pop (h : TimersOk m timer armed now) {n : TimerNode} (hn : n ∈ m.timerNodeQueue)
    (j : HttpId) : (m.pop n).Holds j ↔ m.Holds j ∧ n.data ≠ some j := by
  constructor
  · rintro ⟨k, hk, hd⟩
    obtain ⟨hk, hkn⟩ := (m.mem_pop).mp hk
    refine ⟨⟨k, hk, hd⟩, fun hnd => hkn ?_⟩
    rw [h.unique hk hn hd hnd]
  · rintro ⟨⟨k, hk, hd⟩, hnd⟩
    refine ⟨k, (m.mem_pop).mpr ⟨hk, fun hkn => hnd ?_⟩, hd⟩
    rw [← TimerManager.node_ext hk hn hkn]
    exact hd

/-! ## Expiry -/

/-- **A node that is over was armed long enough ago, and by the last arming.** -/
theorem elapsed (h : TimersOk m timer armed now) {n : TimerNode} {id : HttpId}
    (hn : n ∈ m.timerNodeQueue) (hd : n.data = some id) (ho : n.isOver now = true) :
    ∃ a, armed id = some a ∧ a.node = n.id ∧ a.time + a.timeout ≤ now := by
  obtain ⟨a, ha, hc⟩ := h.armed n hn id hd
  rcases (n.isOver_iff now).mp ho with he | hdel
  · rw [hc.expireTime] at he
    exact ⟨a, ha, hc.node, clockMs_elapsed hc.past he⟩
  · rw [m.emptied n hn hdel] at hd
    exact nomatch hd

end TimersOk

end FlashWeb
