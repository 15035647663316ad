import Mathlib.Data.List.Nodup

/-!
# Timer nodes

A node keeps a connection alive until its time is up. It is never taken out of the middle of the
queue: `ClearNode` empties it, and it is dropped when it comes to the top.

Time is a number of milliseconds, of which `gettimeofday` yields `tv_sec` and `tv_usec`. A
`shared_ptr<Http>` and a `weak_ptr<TimerNode>` are the numbers of what they point to, in the order
of construction.
-/

namespace FlashWeb

/-- The number of an `Http`. -/
abbrev HttpId := Nat

/-- The number of a `TimerNode`. -/
abbrev NodeId := Nat

/-! ## TimerNode -/

/-- `(now.tv_sec % 1000) * 1000 + (now.tv_usec / 1000)` -/
def clockMs (now : Nat) : Nat :=
  let tvSec := now / 1000
  let tvUsec := now % 1000 * 1000
  tvSec % 1000 * 1000 + tvUsec / 1000

/-- The clock starts again every thousand seconds. -/
theorem clockMs_eq (now : Nat) : clockMs now = now % 1000000 := by
  unfold clockMs
  dsimp only
  omega

/-- `TimerNode` -/
structure TimerNode where
  id : NodeId
  expireTime : Nat
  isDeleted : Bool
  /-- `data_` -/
  data : Option HttpId
  deriving DecidableEq, Repr

/-- `TimerNode::TimerNode` -/
def TimerNode.construct (id : NodeId) (data : HttpId) (timeout now : Nat) : TimerNode where
  id := id
  expireTime := clockMs now + timeout
  isDeleted := false
  data := some data

/-- `TimerNode::SetDeleted` -/
def TimerNode.setDeleted (n : TimerNode) : TimerNode := { n with isDeleted := true }

/-- `TimerNode::IsExpired` -/
def TimerNode.isExpired (n : TimerNode) (now : Nat) : Bool × TimerNode :=
  let nowMs := clockMs now
  if nowMs < n.expireTime then (false, n) else (true, n.setDeleted)

/-- `TimerNode::ClearNode` -/
def TimerNode.clearNode (n : TimerNode) : TimerNode := { n with data := none }.setDeleted

/-- `timer_node->IsExpired() || timer_node->IsDeleted()` -/
def TimerNode.isOver (n : TimerNode) (now : Nat) : Bool :=
  let (expired, n) := n.isExpired now
  expired || n.isDeleted

/-- `TimerNode::~TimerNode`: the node and the connection on which it calls `HandleClose`, if any. -/
def TimerNode.destruct (n : TimerNode) : List (NodeId × HttpId) :=
  match n.data with
  | some id => [(n.id, id)]
  | none => []

theorem TimerNode.isOver_iff (n : TimerNode) (now : Nat) :
    n.isOver now = true ↔ n.expireTime ≤ clockMs now ∨ n.isDeleted = true := by
  simp only [TimerNode.isOver, TimerNode.isExpired]
  split
  · next h => simp [Nat.not_le.mpr h]
  · next h => simp [Nat.not_lt.mp h]

/--
A node whose deadline has passed on the clock is old enough: the clock never runs ahead of time.
-/
theorem clockMs_elapsed {t u timeout : Nat} (htu : t ≤ u)
    (h : clockMs t + timeout ≤ clockMs u) : t + timeout ≤ u := by
  rw [clockMs_eq, clockMs_eq] at h
  have hq : t / 1000000 ≤ u / 1000000 := Nat.div_le_div_right htu
  omega

/-! ## TimerManager -/

/--
`TimerManager`. The queue is a `std::priority_queue`: it lists the nodes in the order in which they
were pushed, and `IsTop` says which of them `top()` may be.
-/
structure TimerManager where
  timerNodeQueue : List TimerNode
  /-- the number of nodes constructed so far -/
  created : NodeId
  below : ∀ n ∈ timerNodeQueue, n.id < created
  distinct : (timerNodeQueue.map TimerNode.id).Nodup
  emptied : ∀ n ∈ timerNodeQueue, n.isDeleted = true → n.data = none

namespace TimerManager

/-- The empty queue. -/
def empty : TimerManager where
  timerNodeQueue := []
  created := 0
  below := by simp
  distinct := by simp
  emptied := by simp

variable (m : TimerManager)

/-- `TimerCmp`: `top()` has the least `expire_time_`, and any of several such nodes may be it. -/
def IsTop (n : TimerNode) : Prop :=
  n ∈ m.timerNodeQueue ∧ ∀ k ∈ m.timerNodeQueue, n.expireTime ≤ k.expireTime

instance (n : TimerNode) : Decidable (m.IsTop n) := inferInstanceAs (Decidable (_ ∧ _))

/-- `TimerManager::AddTimerNode`; the new node is number `m.created`. -/
def addTimerNode (data : HttpId) (timeout now : Nat) : TimerManager where
  timerNodeQueue := m.timerNodeQueue ++ [TimerNode.construct m.created data timeout now]
  created := m.created + 1
  below := by
    intro n hn
    rcases List.mem_append.mp hn with hn | hn
    · exact Nat.lt_succ_of_lt (m.below n hn)
    · rw [List.mem_singleton.mp hn]
      exact Nat.lt_succ_self _
  distinct := by
    rw [List.map_append]
    refine List.nodup_append.mpr ⟨m.distinct, by simp, ?_⟩
    intro a ha b hb
    obtain ⟨n, hn, rfl⟩ := List.mem_map.mp ha
    rw [List.mem_singleton.mp hb]
    exact Nat.ne_of_lt (m.below n hn)
  emptied := by
    intro n hn hd
    rcases List.mem_append.mp hn with hn | hn
    · exact m.emptied n hn hd
    · rw [List.mem_singleton.mp hn] at hd
      exact Bool.noConfusion hd

/-- Whether some node holds the connection. -/
def Holds (id : HttpId) : Prop := ∃ n ∈ m.timerNodeQueue, n.data = some id

instance (id : HttpId) : Decidable (m.Holds id) :=
  inferInstanceAs (Decidable (∃ n ∈ m.timerNodeQueue, n.data = some id))

/-- Whether a `weak_ptr` to node `k` can still be locked: the queue holds the only `shared_ptr`. -/
def locks (k : NodeId) : Prop := ∃ n ∈ m.timerNodeQueue, n.id = k

instance (k : NodeId) : Decidable (m.locks k) :=
  inferInstanceAs (Decidable (∃ n ∈ m.timerNodeQueue, n.id = k))

/-- `ClearNode` on node `k` of a list. -/
def clearIn (k : NodeId) (q : List TimerNode) : List TimerNode :=
  q.map fun n => if n.id = k then n.clearNode else n

theorem mem_clearIn {k : NodeId} {q : List TimerNode} {n : TimerNode} :
    n ∈ clearIn k q ↔ (∃ p ∈ q, p.id = k ∧ n = p.clearNode) ∨ (n ∈ q ∧ n.id ≠ k) := by
  simp only [clearIn, List.mem_map]
  constructor
  · rintro ⟨p, hp, rfl⟩
    by_cases hk : p.id = k
    · exact Or.inl ⟨p, hp, hk, if_pos hk⟩
    · rw [if_neg hk]
      exact Or.inr ⟨hp, hk⟩
  · rintro (⟨p, hp, hk, rfl⟩ | ⟨hn, hk⟩)
    · exact ⟨p, hp, if_pos hk⟩
    · exact ⟨n, hn, if_neg hk⟩

/-- `ClearNode` on the node number `k`. -/
def clear (k : NodeId) : TimerManager where
  timerNodeQueue := clearIn k m.timerNodeQueue
  created := m.created
  below := by
    intro n hn
    rcases mem_clearIn.mp hn with ⟨p, hp, -, rfl⟩ | ⟨hn, -⟩
    · exact m.below p hp
    · exact m.below n hn
  distinct := by
    have hmap : (clearIn k m.timerNodeQueue).map TimerNode.id =
        m.timerNodeQueue.map TimerNode.id := by
      rw [clearIn, List.map_map]
      refine List.map_congr_left fun n _ => ?_
      simp only [Function.comp]
      split <;> rfl
    rw [hmap]
    exact m.distinct
  emptied := by
    intro n hn hd
    rcases mem_clearIn.mp hn with ⟨p, hp, -, rfl⟩ | ⟨hn, -⟩
    · rfl
    · exact m.emptied n hn hd

/-- `timer_node_queue_.pop()` when `n` is the top. -/
def pop (n : TimerNode) : TimerManager where
  timerNodeQueue := m.timerNodeQueue.filter (·.id ≠ n.id)
  created := m.created
  below k hk := m.below k (List.mem_of_mem_filter hk)
  distinct := m.distinct.sublist (List.filter_sublist.map _)
  emptied k hk := m.emptied k (List.mem_of_mem_filter hk)

/-! ## Which nodes there are -/

theorem mem_addTimerNode {data : HttpId} {timeout now : Nat} {n : TimerNode} :
    n ∈ (m.addTimerNode data timeout now).timerNodeQueue ↔
      n ∈ m.timerNodeQueue ∨ n = TimerNode.construct m.created data timeout now := by
  simp [addTimerNode]

theorem mem_pop {n k : TimerNode} :
    k ∈ (m.pop n).timerNodeQueue ↔ k ∈ m.timerNodeQueue ∧ k.id ≠ n.id := by
  simp [pop]

variable {m}

/-- Nodes are told apart by their numbers. -/
theorem node_ext {n k : TimerNode} (hn : n ∈ m.timerNodeQueue) (hk : k ∈ m.timerNodeQueue)
    (h : n.id = k.id) : n = k :=
  List.inj_on_of_nodup_map m.distinct hn hk h

/-! ## HandleExpire -/

/-- A node that `HandleExpire` looks at, and when `IsExpired` reads the clock. -/
structure Examined where
  node : TimerNode
  now : Nat
  deriving DecidableEq, Repr

/-- A turn of the loop that pops the top. The queue held the only `shared_ptr` to the node. -/
structure Turn (m : TimerManager) (e : Examined) (m' : TimerManager) : Prop where
  top : m.IsTop e.node
  due : e.node.isOver e.now = true
  popped : m' = m.pop e.node

/--
`TimerManager::HandleExpire`: the nodes it looks at, the calls of `HandleClose` that their
destructors make, and the queue it leaves.
-/
inductive HandleExpire : TimerManager → List Examined → List (NodeId × HttpId) →
    TimerManager → Prop where
  | empty {m : TimerManager} : m.timerNodeQueue = [] → HandleExpire m [] [] m
  | stop {m : TimerManager} {e : Examined} : m.IsTop e.node → e.node.isOver e.now = false →
      HandleExpire m [e] [] m
  | pop {m m₁ m' : TimerManager} {e : Examined} {es : List Examined}
      {closes : List (NodeId × HttpId)} : m.Turn e m₁ → HandleExpire m₁ es closes m' →
      HandleExpire m (e :: es) (e.node.destruct ++ closes) m'

end TimerManager

end FlashWeb
