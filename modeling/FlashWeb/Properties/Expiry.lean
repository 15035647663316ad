import FlashWeb.EventLoop
import FlashWeb.Lib.Drain
import Mathlib.Data.Nat.Basic

/-!
# When a node expires, and what `HandleExpire` makes of it

The clock of the timers starts again every thousand seconds, but the deadline of a node does not: it
is the reading of the clock with the timeout added. So a deadline behind the end of the thousand
seconds is never reached, and one that was reached is ahead again after their end, until as much of
the next thousand seconds has passed (`expired_iff_elapsed`). With respect to these deadlines
`HandleExpire` is exact (`handleExpire_exact`): it drains the queue as in `FlashWeb/Lib/Drain.lean`.
-/

namespace FlashWeb

open Lib TimerManager

/-! ## A deadline and the time -/

/-- The milliseconds after which the clock starts again. -/
def clockPeriod : Nat := 1000 * 1000

theorem isExpired_iff (n : TimerNode) (now : Nat) :
    (n.isExpired now).1 = true ↔ n.expireTime ≤ clockMs now := by
  unfold TimerNode.isExpired
  dsimp only
  split
  · next h => simp [Nat.not_le.mpr h]
  · next h => simp [Nat.not_lt.mp h]

/--
At `u` a node that was set at `t` is reported as it should be. In the period that it was set in it
always is. Later, if its deadline lies in that period, it is between the moment that many periods
behind the deadline and the end of the period of that moment; if its deadline lies behind the end of
that period, it is until the deadline.
-/
inductive ReportedWell (t timeout u : Nat) : Prop where
  | samePeriod : t / clockPeriod = u / clockPeriod → ReportedWell t timeout u
  | inWindow (k : Nat) : t % clockPeriod + timeout < clockPeriod →
      t + timeout + k * clockPeriod ≤ u → u < (t / clockPeriod + k + 1) * clockPeriod →
      ReportedWell t timeout u
  | beforeDeadline : clockPeriod ≤ t % clockPeriod + timeout → u < t + timeout →
      ReportedWell t timeout u

/-- A node whose deadline is behind the end of the period never expires. -/
theorem never_expired {t timeout : Nat} (h : clockPeriod ≤ t % clockPeriod + timeout)
    (id : NodeId) (data : HttpId) (u : Nat) :
    ((TimerNode.construct id data timeout t).isExpired u).1 = false := by
  rw [← Bool.not_eq_true, isExpired_iff]
  show ¬ clockMs t + timeout ≤ clockMs u
  rw [clockMs_eq, clockMs_eq]
  unfold clockPeriod at h
  omega

/-- A moment in a later period, counted from the beginning of its period. -/
theorem window_iff {t timeout u : Nat} (hin : t % clockPeriod + timeout < clockPeriod)
    (hq : t / clockPeriod ≤ u / clockPeriod) :
    t % clockPeriod + timeout ≤ u % clockPeriod ↔ ∃ k, t + timeout + k * clockPeriod ≤ u ∧
      u < (t / clockPeriod + k + 1) * clockPeriod := by
  unfold clockPeriod at hin hq ⊢
  constructor
  · intro h
    exact ⟨u / (1000 * 1000) - t / (1000 * 1000), by omega, by omega⟩
  · rintro ⟨k, hfrom, hto⟩
    omega

/--
**When expiry means elapsed time.** A node is reported expired exactly when its timeout has elapsed,
if and only if the moment is in the period that the node was set in, or in a window behind its
deadline in a later one, or before a deadline that the clock never shows.
-/
theorem expired_iff_elapsed (id : NodeId) (data : HttpId) {t u : Nat} (timeout : Nat)
    (htu : t ≤ u) :
    (((TimerNode.construct id data timeout t).isExpired u).1 = true ↔ timeout ≤ u - t) ↔
      ReportedWell t timeout u := by
  have hq : t / clockPeriod ≤ u / clockPeriod := Nat.div_le_div_right htu
  by_cases hin : t % clockPeriod + timeout < clockPeriod
  · -- the deadline lies in the period in which the node was set
    have hexpired : ((TimerNode.construct id data timeout t).isExpired u).1 = true ↔
        t % clockPeriod + timeout ≤ u % clockPeriod := by
      rw [isExpired_iff, clockMs_eq]
      show clockMs t + timeout ≤ _ ↔ _
      rw [clockMs_eq]
      rfl
    rw [hexpired]
    constructor
    · intro h
      by_cases hperiod : t / clockPeriod = u / clockPeriod
      · exact .samePeriod hperiod
      · have helapsed : timeout ≤ u - t := by
          unfold clockPeriod at *
          omega
        obtain ⟨k, hfrom, hto⟩ := (window_iff hin hq).mp (h.mpr helapsed)
        exact .inWindow k hin hfrom hto
    · intro h
      cases h with
      | samePeriod h =>
        unfold clockPeriod at *
        omega
      | inWindow k _ hfrom hto =>
        exact iff_of_true ((window_iff hin hq).mpr ⟨k, hfrom, hto⟩) (by omega)
      | beforeDeadline h => exact absurd h (Nat.not_le_of_lt hin)
  · -- the deadline lies behind it
    have hbehind := Nat.le_of_not_lt hin
    rw [never_expired hbehind, iff_false_left Bool.false_ne_true]
    constructor
    · intro h
      exact .beforeDeadline hbehind (by omega)
    · intro h
      cases h with
      | samePeriod h =>
        unfold clockPeriod at *
        omega
      | inWindow k h => exact absurd h hin
      | beforeDeadline _ h => omega

/-- Three seconds on the clock, and in time. -/
theorem expired_after_three_seconds :
    ((TimerNode.construct 0 0 3000 1000).isExpired 4000).1 = true ↔ 3000 ≤ 4000 - 1000 :=
  (expired_iff_elapsed 0 0 3000 (by decide)).mpr (.samePeriod rfl)

/-- Three seconds over the end of the period: the deadline is never reached. -/
theorem expired_not_over_period :
    ¬ (((TimerNode.construct 0 0 3000 999000).isExpired 1002000).1 = true ↔
      3000 ≤ 1002000 - 999000) := by
  decide

/-! ## HandleExpire drains the queue -/

/-- The key of a node, and when a node is over. -/
def NodeOver (now : Nat) (n : TimerNode) : Prop := n.isOver now = true

/-- What is left when the top is popped. -/
theorem pop_perm {m : TimerManager} {n : TimerNode} (hn : n ∈ m.timerNodeQueue) :
    m.timerNodeQueue.Perm (n :: (m.pop n).timerNodeQueue) := by
  have hdistinct := m.distinct.of_map
  refine (List.perm_ext_iff_of_nodup hdistinct ?_).mpr ?_
  · refine List.nodup_cons.mpr ⟨?_, (m.pop n).distinct.of_map⟩
    intro hmem
    exact ((m.mem_pop).mp hmem).2 rfl
  · intro k
    rw [List.mem_cons, m.mem_pop]
    constructor
    · intro hk
      by_cases hid : k.id = n.id
      · exact Or.inl (node_ext hk hn hid)
      · exact Or.inr ⟨hk, hid⟩
    · rintro (rfl | ⟨hk, -⟩)
      · exact hn
      · exact hk

theorem TimerManager.Turn.take {m m' : TimerManager} {e : Examined} (h : m.Turn e m') :
    Take TimerNode.expireTime NodeOver m.timerNodeQueue (e.node, e.now) m'.timerNodeQueue where
  top := h.top
  due := h.due
  left := by
    rw [h.popped]
    exact pop_perm h.top.1

/-- The nodes that were looked at, as the drain lists them. -/
def TimerManager.Examined.pair (e : Examined) : TimerNode × Nat := (e.node, e.now)

/-- **A call of `HandleExpire` is a drain, and only the nodes taken off are destroyed.** -/
theorem TimerManager.HandleExpire.drain {m m' : TimerManager} {es : List Examined}
    {closes : List (NodeId × HttpId)} (h : HandleExpire m es closes m') :
    ∃ (taken : List Examined) (last : Option Examined), es = taken ++ last.toList ∧
      Drain TimerNode.expireTime NodeOver m.timerNodeQueue (taken.map Examined.pair)
        (last.map Examined.pair) m'.timerNodeQueue ∧
      closes = taken.flatMap fun e => e.node.destruct := by
  induction h with
  | empty hq =>
    refine ⟨[], none, rfl, ?_, rfl⟩
    rw [hq]
    exact .empty
  | @stop m e htop hover =>
    refine ⟨[], some e, rfl, .stop htop ?_, rfl⟩
    show ¬ e.node.isOver e.now = true
    rw [hover]
    exact Bool.false_ne_true
  | @pop m m₁ m' e es closes hturn _ ih =>
    obtain ⟨taken, last, rfl, hdrain, rfl⟩ := ih
    exact ⟨e :: taken, last, rfl, .take hturn.take hdrain, rfl⟩

/-- The loop cannot go on for ever. -/
theorem turn_wellFounded : WellFounded fun m' m : TimerManager => ∃ e, m.Turn e m' := by
  refine Subrelation.wf ?_ (InvImage.wf timerNodeQueue
    (@take_wellFounded TimerNode Nat Nat _ TimerNode.expireTime NodeOver))
  rintro m' m ⟨e, he⟩
  exact ⟨_, he.take⟩

/-- It comes to an end at whatever moments it reads the clock. -/
theorem exists_handleExpire (m : TimerManager) (times : Nat → Nat) :
    ∃ es closes m', HandleExpire m es closes m' ∧
      ∀ i e, es[i]? = some e → e.now = times i := by
  induction m using turn_wellFounded.induction generalizing times with
  | _ m ih =>
    by_cases hq : m.timerNodeQueue = []
    · exact ⟨[], [], m, .empty hq, by simp⟩
    · obtain ⟨n, hn⟩ := exists_isTop TimerNode.expireTime hq
      cases hover : n.isOver (times 0) with
      | false =>
        refine ⟨[⟨n, times 0⟩], [], m, .stop hn hover, ?_⟩
        intro i e he
        cases i with
        | zero => rw [← Option.some.inj he]
        | succ i => simp at he
      | true =>
        have hturn : m.Turn ⟨n, times 0⟩ (m.pop n) := ⟨hn, hover, rfl⟩
        obtain ⟨es, closes, m', hrun, htimes⟩ :=
          ih (m.pop n) ⟨_, hturn⟩ fun i => times (i + 1)
        refine ⟨_, _, m', .pop hturn hrun, ?_⟩
        intro i e he
        cases i with
        | zero => rw [← Option.some.inj he]
        | succ i => exact htimes i e he

/-! ## Runs of a queue -/

/-- A queue and what was done with it. -/
structure TimerRun where
  manager : TimerManager
  /-- the connection that each node was constructed for -/
  connection : NodeId → Option HttpId
  cleared : List NodeId

/-- `AddTimerNode` -/
def TimerRun.addTimerNode (s : TimerRun) (data : HttpId) (timeout now : Nat) : TimerRun :=
  { s with
    manager := s.manager.addTimerNode data timeout now
    connection := Function.update s.connection s.manager.created (some data) }

/-- `ClearNode` on the node number `k` -/
def TimerRun.clearNode (s : TimerRun) (k : NodeId) : TimerRun :=
  { s with manager := s.manager.clear k, cleared := k :: s.cleared }

/-- What is done with a queue. -/
inductive TimerOp where
  | addTimerNode (data : HttpId) (timeout now : Nat)
  | clearNode (k : NodeId)
  | handleExpire (es : List Examined)

inductive TimerSteps : TimerRun → TimerOp → TimerRun → Prop where
  | addTimerNode {s : TimerRun} (data : HttpId) (timeout now : Nat) :
      TimerSteps s (.addTimerNode data timeout now) (s.addTimerNode data timeout now)
  /-- `timer_` can be locked as long as the node is in the queue -/
  | clearNode {s : TimerRun} (k : NodeId) : s.manager.locks k →
      TimerSteps s (.clearNode k) (s.clearNode k)
  | handleExpire {s : TimerRun} {es : List Examined} {closes : List (NodeId × HttpId)}
      {m : TimerManager} : HandleExpire s.manager es closes m →
      TimerSteps s (.handleExpire es) { s with manager := m }

/-- The runs of a queue that is empty at first. -/
def timerRuns : System TimerRun TimerOp where
  init s := s = ⟨TimerManager.empty, fun _ => none, []⟩
  step := TimerSteps

/-- A node holds its connection until it is cleared, and is deleted when it is. -/
structure TimerRun.Ok (s : TimerRun) : Prop where
  data : ∀ n ∈ s.manager.timerNodeQueue,
    n.data = if n.id ∈ s.cleared then none else s.connection n.id
  isDeleted : ∀ n ∈ s.manager.timerNodeQueue, n.isDeleted = true ↔ n.id ∈ s.cleared
  connection : ∀ k < s.manager.created, (s.connection k).isSome
  cleared : ∀ k ∈ s.cleared, k < s.manager.created

theorem TimerRun.Ok.addTimerNode {s : TimerRun} (h : s.Ok) (data : HttpId) (timeout now : Nat) :
    (s.addTimerNode data timeout now).Ok := by
  -- the number of the new node is new
  have hnew : s.manager.created ∉ s.cleared := fun hc => Nat.lt_irrefl _ (h.cleared _ hc)
  constructor <;> dsimp only [TimerRun.addTimerNode]
  · intro n hn
    rcases (s.manager.mem_addTimerNode).mp hn with hq | rfl
    · have hne : n.id ≠ s.manager.created := Nat.ne_of_lt (s.manager.below n hq)
      rw [Function.update_of_ne hne]
      exact h.data n hq
    · show some data = if s.manager.created ∈ s.cleared then none
        else Function.update s.connection s.manager.created (some data) s.manager.created
      rw [if_neg hnew, Function.update_self]
  · intro n hn
    rcases (s.manager.mem_addTimerNode).mp hn with hq | rfl
    · exact h.isDeleted n hq
    · exact iff_of_false Bool.false_ne_true hnew
  · intro k hk
    by_cases hc : k = s.manager.created
    · rw [hc, Function.update_self]
      rfl
    · rw [Function.update_of_ne hc]
      exact h.connection k ((Nat.lt_succ_iff_lt_or_eq.mp hk).resolve_right hc)
  · intro k hk
    exact Nat.lt_succ_of_lt (h.cleared k hk)

theorem TimerRun.Ok.clearNode {s : TimerRun} (h : s.Ok) {k : NodeId} (hk : s.manager.locks k) :
    (s.clearNode k).Ok := by
  constructor <;> dsimp only [TimerRun.clearNode]
  · intro n hn
    rcases mem_clearIn.mp hn with ⟨p, -, hpk, rfl⟩ | ⟨hq, hne⟩
    · exact (if_pos (List.mem_cons.mpr (Or.inl hpk))).symm
    · rw [h.data n hq]
      simp [hne]
  · intro n hn
    rcases mem_clearIn.mp hn with ⟨p, -, hpk, rfl⟩ | ⟨hq, hne⟩
    · exact iff_of_true rfl (List.mem_cons.mpr (Or.inl hpk))
    · rw [h.isDeleted n hq]
      simp [hne]
  · exact h.connection
  · intro j hj
    rcases List.mem_cons.mp hj with rfl | hj
    · obtain ⟨n, hn, rfl⟩ := hk
      exact s.manager.below n hn
    · exact h.cleared j hj

/-- What `HandleExpire` leaves is part of what there was. -/
theorem TimerManager.HandleExpire.left {m m' : TimerManager} {es : List Examined}
    {closes : List (NodeId × HttpId)} (h : HandleExpire m es closes m') :
    m'.created = m.created ∧ ∀ n ∈ m'.timerNodeQueue, n ∈ m.timerNodeQueue := by
  induction h with
  | empty => exact ⟨rfl, fun n hn => hn⟩
  | stop => exact ⟨rfl, fun n hn => hn⟩
  | pop hturn _ ih =>
    rw [hturn.popped] at ih
    exact ⟨ih.1, fun n hn => ((mem_pop _).mp (ih.2 n hn)).1⟩

theorem TimerRun.Ok.handleExpire {s : TimerRun} (h : s.Ok) {es : List Examined}
    {closes : List (NodeId × HttpId)} {m : TimerManager}
    (hrun : HandleExpire s.manager es closes m) : TimerRun.Ok { s with manager := m } := by
  obtain ⟨hcreated, hleft⟩ := hrun.left
  refine ⟨fun n hn => h.data n (hleft n hn), fun n hn => h.isDeleted n (hleft n hn), ?_, ?_⟩
  · rw [hcreated]
    exact h.connection
  · rw [hcreated]
    exact h.cleared

theorem timerRuns_ok {s : TimerRun} (h : timerRuns.Reachable s) : s.Ok := by
  refine h.invariant (I := TimerRun.Ok) ?_ ?_
  · rintro s rfl
    exact ⟨by simp [TimerManager.empty], by simp [TimerManager.empty],
      by simp [TimerManager.empty], by simp⟩
  · intro s a t _ hs hstep
    cases hstep with
    | addTimerNode data timeout now => exact hs.addTimerNode data timeout now
    | clearNode k hk => exact hs.clearNode hk
    | handleExpire hrun => exact hs.handleExpire hrun

/-! ## HandleExpire is exact -/

/--
What a call of `HandleExpire` has to do: close the connections of the nodes whose deadline has
passed when they are looked at, of each node once and of no node that was cleared, and stop at a
node that is not deleted and whose deadline, like all those behind it, is still ahead.
-/
structure ExactExpiry (s : TimerRun) (es : List Examined) (closes : List (NodeId × HttpId))
    (m : TimerManager) : Prop where
  closed : closes.map (fun c => (c.1, some c.2)) =
    (es.filter fun e => e.node.expireTime ≤ clockMs e.now ∧ e.node.id ∉ s.cleared).map
      fun e => (e.node.id, s.connection e.node.id)
  once : (closes.map Prod.fst).Nodup
  spared : ∀ c ∈ closes, c.1 ∉ s.cleared
  later : ∀ n ∈ m.timerNodeQueue, ∀ e ∈ es.getLast?, clockMs e.now < n.expireTime
  top : m.timerNodeQueue ≠ [] → ∃ e ∈ es.getLast?, m.IsTop e.node ∧ e.node.isDeleted = false

/-- What the destructor of a node does, by what was done with the node before. -/
theorem TimerRun.Ok.destruct {s : TimerRun} (h : s.Ok) {n : TimerNode}
    (hn : n ∈ s.manager.timerNodeQueue) :
    n.destruct.map (fun c => (c.1, some c.2)) =
      if n.id ∈ s.cleared then [] else [(n.id, s.connection n.id)] := by
  have hdata := h.data n hn
  have hsome := h.connection n.id (s.manager.below n hn)
  unfold TimerNode.destruct
  split
  · next id hid =>
    rw [hid] at hdata
    split at hdata
    · simp at hdata
    · next hc =>
      rw [if_neg hc, ← hdata]
      rfl
  · next hnone =>
    rw [hnone] at hdata
    split at hdata
    · next hc =>
      rw [if_pos hc]
      rfl
    · rw [← hdata] at hsome
      simp at hsome

/-- The nodes that were taken off were in the queue, each of them once. -/
theorem taken_nodup {m m' : TimerManager} {taken : List Examined} {last : Option (TimerNode × Nat)}
    (h : Drain TimerNode.expireTime NodeOver m.timerNodeQueue (taken.map Examined.pair) last
      m'.timerNodeQueue) :
    (taken.map fun e => e.node.id).Nodup ∧ ∀ e ∈ taken, e.node ∈ m.timerNodeQueue := by
  have hperm := h.perm
  rw [List.map_map] at hperm
  constructor
  · have hids := (hperm.map TimerNode.id).nodup_iff.mp m.distinct
    rw [List.map_append, List.map_map] at hids
    exact hids.of_append_left
  · intro e he
    refine hperm.mem_iff.mpr (List.mem_append_left _ ?_)
    exact List.mem_map.mpr ⟨e, he, rfl⟩

/-- The destructors of nodes that are due or were cleared. -/
theorem TimerRun.Ok.destructs {s : TimerRun} (h : s.Ok) : ∀ {taken : List Examined},
    (∀ e ∈ taken, e.node ∈ s.manager.timerNodeQueue) →
    (∀ e ∈ taken, e.node.id ∉ s.cleared → e.node.expireTime ≤ clockMs e.now) →
    (taken.flatMap fun e => e.node.destruct).map (fun c => (c.1, some c.2)) =
      (taken.filter fun e => e.node.expireTime ≤ clockMs e.now ∧ e.node.id ∉ s.cleared).map
        fun e => (e.node.id, s.connection e.node.id)
  | [], _, _ => rfl
  | e :: taken, hmem, hdue => by
    have ih := h.destructs (fun e he => hmem e (List.mem_cons_of_mem _ he))
      fun e he => hdue e (List.mem_cons_of_mem _ he)
    rw [List.flatMap_cons, List.map_append, ih, h.destruct (hmem e List.mem_cons_self)]
    by_cases hc : e.node.id ∈ s.cleared
    · rw [if_pos hc, List.filter_cons_of_neg (by simp [hc])]
      rfl
    · have hle := hdue e List.mem_cons_self hc
      rw [if_neg hc, List.filter_cons_of_pos (by simp [hc, hle])]
      rfl

/-- **What one call does.** -/
theorem TimerRun.Ok.exactExpiry {s : TimerRun} (h : s.Ok) {es : List Examined}
    {closes : List (NodeId × HttpId)} {m : TimerManager}
    (hrun : HandleExpire s.manager es closes m) : ExactExpiry s es closes m := by
  obtain ⟨taken, last, rfl, hdrain, rfl⟩ := hrun.drain
  obtain ⟨hnodup, hmem⟩ := taken_nodup hdrain
  -- a node that is over without having been cleared has expired
  have hdue : ∀ e ∈ taken, e.node.id ∉ s.cleared → e.node.expireTime ≤ clockMs e.now := by
    intro e he hc
    have hpair : e.pair ∈ taken.map Examined.pair := List.mem_map_of_mem he
    have hover := hdrain.due_of_mem hpair
    refine ((e.node.isOver_iff e.now).mp hover).resolve_right ?_
    exact fun hd => hc ((h.isDeleted e.node (hmem e he)).mp hd)
  -- the last node that is looked at is neither
  have hlast : (last = none ∧ m.timerNodeQueue = []) ∨ ∃ e, last = some e ∧ m.IsTop e.node ∧
      clockMs e.now < e.node.expireTime ∧ e.node.isDeleted = false := by
    rcases hdrain.ends with ⟨hnone, hq⟩ | ⟨e', hsome, htop, hover⟩
    · exact Or.inl ⟨Option.map_eq_none_iff.mp hnone, hq⟩
    · obtain ⟨e, he, rfl⟩ := Option.map_eq_some_iff.mp hsome
      have hnot : ¬ (e.node.expireTime ≤ clockMs e.now ∨ e.node.isDeleted = true) :=
        fun ho => hover ((e.node.isOver_iff e.now).mpr ho)
      rw [not_or] at hnot
      exact Or.inr ⟨e, he, htop, Nat.lt_of_not_le hnot.1, by simpa using hnot.2⟩
  have hclosed : (taken.flatMap fun e => e.node.destruct).map (fun c => (c.1, some c.2)) =
      ((taken ++ last.toList).filter fun e =>
        e.node.expireTime ≤ clockMs e.now ∧ e.node.id ∉ s.cleared).map
        fun e => (e.node.id, s.connection e.node.id) := by
    rw [h.destructs hmem hdue, List.filter_append]
    rcases hlast with ⟨rfl, -⟩ | ⟨e, rfl, -, hahead, -⟩
    · simp
    · simp [Nat.not_le.mpr hahead]
  refine ⟨hclosed, ?_, ?_, ?_, ?_⟩
  · have hids := congrArg (List.map Prod.fst) (h.destructs hmem hdue)
    rw [List.map_map, List.map_map] at hids
    show (List.map Prod.fst _).Nodup
    rw [show List.map Prod.fst _ = _ from hids]
    exact hnodup.sublist (List.filter_sublist.map _)
  · intro c hc
    have hpair := List.mem_map_of_mem (f := fun c : NodeId × HttpId => (c.1, some c.2)) hc
    rw [hclosed] at hpair
    obtain ⟨e, he, heq⟩ := List.mem_map.mp hpair
    have hid : e.node.id = c.1 := congrArg Prod.fst heq
    rw [← hid]
    exact (by simpa using (List.mem_filter.mp he).2 : _ ∧ _).2
  · intro n hn e he
    rcases hlast with ⟨-, hq⟩ | ⟨e', rfl, htop, hahead, -⟩
    · rw [hq] at hn
      exact absurd hn List.not_mem_nil
    · obtain rfl : e' = e := by simpa using he
      exact lt_of_lt_of_le hahead (htop.2 n hn)
  · intro hq
    rcases hlast with ⟨-, hnil⟩ | ⟨e, rfl, htop, -, hdel⟩
    · exact absurd hnil hq
    · exact ⟨e, by simp, htop, hdel⟩

/--
**`HandleExpire` is exact with respect to the stored deadlines.** On every queue that can come about
the loop ends, at whatever moments it reads the clock, and every call closes what it has to close.
-/
theorem handleExpire_exact {s : TimerRun} (hs : timerRuns.Reachable s) :
    Acc (fun m' m : TimerManager => ∃ e, m.Turn e m') s.manager ∧
      (∀ times : Nat → Nat, ∃ es closes m, HandleExpire s.manager es closes m ∧
        ∀ i e, es[i]? = some e → e.now = times i) ∧
      ∀ es closes m, HandleExpire s.manager es closes m → ExactExpiry s es closes m :=
  ⟨turn_wellFounded.apply s.manager, exists_handleExpire s.manager,
    fun _ _ _ hrun => (timerRuns_ok hs).exactExpiry hrun⟩

/-- A node that is cleared, and one that is not. -/
def TimerRun.sample : TimerRun :=
  let s : TimerRun := ⟨TimerManager.empty, fun _ => none, []⟩
  ((s.addTimerNode 7 1000 0).addTimerNode 8 2000 0).clearNode 0

theorem TimerRun.sample_reachable : timerRuns.Reachable TimerRun.sample := by
  have h0 : timerRuns.Reachable ⟨TimerManager.empty, fun _ => none, []⟩ := .init rfl
  have h1 := h0.step (TimerSteps.addTimerNode 7 1000 0)
  have h2 := h1.step (TimerSteps.addTimerNode 8 2000 0)
  exact h2.step (TimerSteps.clearNode 0 (by decide))

/-- At three seconds the queue is emptied and one connection closed. -/
theorem handleExpire_exact_sample : ∃ es m, ExactExpiry TimerRun.sample es [(1, 8)] m := by
  let first : TimerNode := (TimerNode.construct 0 7 1000 0).clearNode
  let second : TimerNode := TimerNode.construct 1 8 2000 0
  have hrun : HandleExpire TimerRun.sample.manager [⟨first, 3000⟩, ⟨second, 3000⟩] [(1, 8)]
      ((TimerRun.sample.manager.pop first).pop second) :=
    .pop ⟨by decide, by decide, rfl⟩ (.pop ⟨by decide, by decide, rfl⟩ (.empty rfl))
  exact ⟨_, _, (handleExpire_exact TimerRun.sample_reachable).2.2 _ _ _ hrun⟩

/-! ## The same in the loop -/

namespace EventLoop

/-- Destroying a node does not disturb the queue. -/
theorem expire_timerManager (s : EventLoop) (n : TimerNode) :
    (s.expire n).timerManager = s.timerManager.pop n := by
  unfold expire
  cases n.data <;> rfl

theorem expire_now (s : EventLoop) (n : TimerNode) : (s.expire n).now = s.now := by
  unfold expire
  cases n.data <;> rfl

/-- The calls of `HandleClose` are those of the destructor. -/
theorem expire_closes (s : EventLoop) (n : TimerNode) (id : HttpId) :
    (s.expire n).closes id = s.closes id + (n.destruct.map Prod.snd).count id := by
  unfold expire TimerNode.destruct
  cases n.data with
  | none => rfl
  | some j =>
    show Function.update s.closes j (s.closes j + 1) id = _
    by_cases hj : id = j
    · subst hj
      simp
    · rw [Function.update_of_ne hj]
      simp [Ne.symm hj]

/-- **A call of `HandleExpire` is a run of the loop**, at moments that do not go back. -/
theorem handleExpire_run {wakeupFd : Fd} {m m' : TimerManager} {es : List Examined}
    {closes : List (NodeId × HttpId)} (h : HandleExpire m es closes m') :
    ∀ {s : EventLoop}, s.timerManager = m → s.phase = .expiring →
      (es.map Examined.now).Pairwise (· ≤ ·) → (∀ e ∈ es, s.now ≤ e.now) →
      ∃ t, ((loops wakeupFd).after s).Reachable t ∧ t.timerManager = m' ∧ t.phase = .polling ∧
        ∀ id, t.closes id = s.closes id + (closes.map Prod.snd).count id := by
  induction h with
  | empty hq =>
    intro s hm hp _ _
    have h0 : ((loops wakeupFd).after s).Reachable s := .init rfl
    exact ⟨_, h0.step (Steps.rest hp (Or.inl (by rw [hm, hq]))), hm, rfl, fun _ => rfl⟩
  | @stop m e htop hover =>
    intro s hm hp _ hnow
    -- time passes until the clock is read
    have hsum : s.now + (e.now - s.now) = e.now :=
      Nat.add_sub_cancel' (hnow e List.mem_cons_self)
    have h0 : ((loops wakeupFd).after s).Reachable s := .init rfl
    have h1 := h0.step (Steps.tick (e.now - s.now))
    rw [hsum] at h1
    refine ⟨_, h1.step (Steps.rest hp (Or.inr ⟨e.node, ?_, hover⟩)), hm, rfl, fun _ => rfl⟩
    rw [← hm] at htop
    exact htop
  | @pop m m₁ m' e es closes hturn _ ih =>
    intro s hm hp hsorted hnow
    have hsum : s.now + (e.now - s.now) = e.now :=
      Nat.add_sub_cancel' (hnow e List.mem_cons_self)
    have h0 : ((loops wakeupFd).after s).Reachable s := .init rfl
    have h1 := h0.step (Steps.tick (e.now - s.now))
    rw [hsum] at h1
    have htop := hturn.top
    rw [← hm] at htop
    have h2 := h1.step (Steps.expire e.node hp htop hturn.due)
    rw [List.map_cons, List.pairwise_cons] at hsorted
    obtain ⟨t, ht, hmt, hpt, hct⟩ := ih
      (s := EventLoop.expire { s with now := e.now } e.node)
      (by rw [expire_timerManager, hturn.popped, ← hm]) (by rw [expire_phase]; exact hp) hsorted.2
      (by
        intro e' he'
        rw [expire_now]
        exact hsorted.1 _ (List.mem_map_of_mem he'))
    refine ⟨t, h2.trans ht, hmt, hpt, ?_⟩
    intro id
    rw [hct, expire_closes, List.map_append, List.count_append, Nat.add_assoc]

end EventLoop

end FlashWeb
