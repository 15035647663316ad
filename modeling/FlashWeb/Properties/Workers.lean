import FlashWeb.Server

/-!
# Which loops are handed out

The pool hands out its loops in turn for as long as the server runs, and never asks whether they
still run. A loop is spent when five of its waits were in vain and the round of the fifth is over:
its worker then leaves it for good, and every connection that is accepted on its turn is lost. The
condition under which this does not happen is that no connection is accepted on the turn of a spent
loop. Where one is, a run that differs in the moment of leaving only goes wrong there.
-/

namespace FlashWeb

open Lib

/-- Five waits were in vain, and the round of the fifth is over. -/
def EventLoop.Spent (l : EventLoop) : Prop := l.phase = .polling ∧ 5 ≤ l.timeoutCount

namespace Server

/-- Every loop that was handed out, and every loop an `Init` was queued on, was still in `Loop`. -/
def HandedToRunning (s : Server) : Prop :=
  (∀ e ∈ s.handed, e.inLoop = true) ∧ ∀ e ∈ s.queued, e.inLoop = true

/-- No connection is accepted on the turn of a spent loop, and no `Init` is queued on one. -/
def ForUnspent (s : Server) (a : ServerStep) (_ : Server) : Prop :=
  (∀ fd, a = .accept fd → ¬ (s.threads s.pool.nextLoop).loop.Spent) ∧
    ∀ k fd, a = .runFunction → s.main = .handing k fd → ¬ (s.threads k).loop.Spent

/-! ## The invariant -/

/-- What `start` has put into the pool when the main thread is at a stage. -/
def StageOk (s : Server) : MainStage → Prop
  | .starting => s.pool.eventloops = List.range s.started
  | .gettingLoop k => s.started = k + 1 ∧ s.pool.eventloops = List.range k
  | .polling => s.started = s.pool.threadNum ∧ s.pool.eventloops = List.range s.started
  | .accepting => s.started = s.pool.threadNum ∧ s.pool.eventloops = List.range s.started
  | .handing k _ =>
    k < s.started ∧ s.started = s.pool.threadNum ∧ s.pool.eventloops = List.range s.started

/-- A worker leaves its loop when the loop is spent. -/
def LeftOk (t : EventLoopThread) : Prop := t.inLoop = false → t.loop.Spent

/-- What holds of every server. -/
structure Ok (s : Server) : Prop where
  started_le : s.started ≤ s.pool.threadNum
  stage : s.StageOk s.main
  left : ∀ k < s.started, LeftOk (s.threads k)
  next : s.pool.nextLoop = s.handed.length % s.pool.threadNum
  turns : s.handed.map Handed.loop = (List.range s.handed.length).map (· % s.pool.threadNum)

variable {s t : Server} {wakeupFd : Nat → Fd}

theorem Ok.at (h : s.Ok) {m : MainStage} (hm : s.main = m) : s.StageOk m := hm ▸ h.stage

theorem ok_construct (threadNum : Nat) : (construct threadNum).Ok where
  started_le := Nat.zero_le _
  stage := rfl
  left k hk := absurd hk (Nat.not_lt_zero k)
  next := (Nat.zero_mod _).symm
  turns := rfl

/-- **`GetNextLoop` returns the loop whose turn it is, and there is one.** -/
theorem Ok.getNextLoop (h : s.Ok) {k : Nat} {pool : EventLoopThreadPool}
    (hmain : s.main = .accepting) (hk : s.pool.getNextLoop = some (k, pool)) :
    k = s.pool.nextLoop ∧ k < s.started ∧ pool.threadNum = s.pool.threadNum ∧
      pool.eventloops = s.pool.eventloops ∧
      pool.nextLoop = (s.pool.nextLoop + 1) % s.pool.threadNum := by
  obtain ⟨hall, hloops⟩ := h.at hmain
  unfold EventLoopThreadPool.getNextLoop at hk
  split at hk
  · next hpos =>
    obtain ⟨loop, hloop, heq⟩ := Option.map_eq_some_iff.mp hk
    have hlt := s.pool.nextLoop_lt hpos
    rw [hloops, List.getElem?_range (by omega), Option.some.injEq] at hloop
    cases heq
    exact ⟨hloop.symm, by omega, rfl, rfl, rfl⟩
  · simp at hk

/-- Another state of one thread. -/
theorem leftOk_setThread (h : ∀ k < s.started, LeftOk (s.threads k)) {k : Nat}
    {thread : EventLoopThread} (ht : LeftOk thread) :
    ∀ j < s.started, LeftOk ((s.setThread k thread).threads j) := by
  intro j hj
  by_cases hjk : j = k
  · rw [hjk, setThread_self]
    exact ht
  · rw [setThread_ne _ _ hjk]
    exact h j hj

/-- A round of the pool is `threadNum` hand-outs. -/
theorem Ok.accept (h : s.Ok) {k : Nat} {pool : EventLoopThreadPool} (fd : Fd)
    (hmain : s.main = .accepting) (hk : s.pool.getNextLoop = some (k, pool)) :
    (s.accept k pool fd).Ok := by
  obtain ⟨hturn, hlt, hnum, hloops, hnext⟩ := h.getNextLoop hmain hk
  constructor
  · change s.started ≤ pool.threadNum
    rw [hnum]
    exact h.started_le
  · change k < s.started ∧ s.started = pool.threadNum ∧ pool.eventloops = List.range s.started
    rw [hnum, hloops]
    exact ⟨hlt, h.at hmain⟩
  · exact h.left
  · change pool.nextLoop = (s.handed ++ [s.take k]).length % pool.threadNum
    rw [hnext, hnum, h.next, Nat.mod_add_mod, List.length_append, List.length_singleton]
  · change (s.handed ++ [s.take k]).map Handed.loop =
      (List.range (s.handed ++ [s.take k]).length).map (· % pool.threadNum)
    rw [hnum, List.map_append, h.turns, List.length_append, List.length_singleton,
      List.range_succ, List.map_append]
    simp [take, hturn, h.next]

/-- **Every step keeps the invariant.** -/
theorem Ok.step (h : s.Ok) {a : ServerStep} (hs : ServerSteps wakeupFd s a t) : t.Ok := by
  cases hs with
  | spawn now hmain hlt =>
    constructor
    · exact hlt
    · exact ⟨rfl, h.at hmain⟩
    · -- the threads so far, and the new one, which is in its loop
      intro k hk
      rcases Nat.lt_succ_iff_lt_or_eq.mp hk with hold | rfl
      · exact leftOk_setThread h.left (fun hout => absurd hout (by simp)) k hold
      · intro hout
        simp [Server.spawn] at hout
    · exact h.next
    · exact h.turns
  | @getLoop k hmain hin =>
    -- the pointer that is pushed is that of the last thread
    obtain ⟨hstarted, hloops⟩ := h.at hmain
    refine ⟨h.started_le, ?_, h.left, h.next, h.turns⟩
    change s.pool.eventloops ++ [k] = List.range s.started
    rw [hloops, hstarted, List.range_succ]
  | listen hmain hall =>
    have hdone : s.started = s.pool.threadNum :=
      Nat.le_antisymm h.started_le (Nat.le_of_not_lt hall)
    exact ⟨h.started_le, ⟨hdone, h.at hmain⟩, h.left, h.next, h.turns⟩
  | wait ready hmain hcount =>
    refine ⟨h.started_le, ?_, h.left, h.next, h.turns⟩
    cases ready with
    | false => exact h.at hmain
    | true => exact h.at hmain
  | accept fd hmain _ hk => exact h.accept fd hmain hk
  | @runFunction k fd hmain _ =>
    -- a callback that is queued changes neither the phase nor the count
    obtain ⟨hlt, hserving⟩ := h.at hmain
    exact ⟨h.started_le, hserving, leftOk_setThread h.left (h.left k hlt), h.next, h.turns⟩
  | accepted hmain =>
    exact ⟨h.started_le, h.at hmain, h.left, h.next, h.turns⟩
  | worker k hk hin _ _ =>
    refine ⟨h.started_le, h.stage, leftOk_setThread h.left ?_, h.next, h.turns⟩
    intro hout
    rw [hin] at hout
    exact absurd hout (by simp)
  | leave k hk hin hphase hcount =>
    have hspent : (s.threads k).loop.Spent := ⟨hphase, Nat.le_of_not_lt hcount⟩
    exact ⟨h.started_le, h.stage, leftOk_setThread h.left fun _ => hspent, h.next, h.turns⟩

/-- **What holds of every reachable server.** -/
theorem ok_of_reachable {threadNum : Nat} (h : (servers wakeupFd threadNum).Reachable s) :
    s.Ok := by
  refine h.invariant (I := Ok) ?_ fun s a t _ hI hs => hI.step hs
  rintro s rfl
  exact ok_construct threadNum

/-! ## Each worker is a loop -/

/-- **What holds of every loop holds of the loop of every worker.** -/
theorem worker_reachable {threadNum : Nat} (h : (servers wakeupFd threadNum).Reachable s) :
    ∀ k < s.started, (loops (wakeupFd k)).Reachable (s.threads k).loop := by
  refine h.invariant (I := fun s => ∀ k < s.started,
    (loops (wakeupFd k)).Reachable (s.threads k).loop) ?_ ?_
  · rintro s rfl k hk
    exact absurd hk (Nat.not_lt_zero k)
  · intro s a t hr hI hs j
    -- the thread that the step is about, and the other ones
    have hset : ∀ (k : Nat) (thread : EventLoopThread),
        (loops (wakeupFd k)).Reachable thread.loop → j < s.started →
        (loops (wakeupFd j)).Reachable ((s.setThread k thread).threads j).loop := by
      intro k thread hthread hj
      by_cases hjk : j = k
      · subst hjk
        rwa [setThread_self]
      · rw [setThread_ne _ _ hjk]
        exact hI j hj
    have hok := ok_of_reachable hr
    cases hs with
    | spawn now hmain hlt =>
      intro hj
      by_cases hjs : j = s.started
      · subst hjs
        refine .init ⟨now, ?_⟩
        simp [Server.spawn]
      · have hold : j < s.started := Nat.lt_of_le_of_ne (Nat.le_of_lt_succ hj) hjs
        rw [Server.spawn]
        simpa [setThread_ne _ _ hjs] using hI j hold
    | getLoop _ _ => exact hI j
    | listen _ _ => exact hI j
    | wait _ _ _ => exact hI j
    | accept _ _ _ _ => exact hI j
    | @runFunction k fd hmain hstep =>
      exact hset k _ ((hI k (hok.at hmain).1).step hstep)
    | accepted _ => exact hI j
    | worker k hk _ _ hstep => exact hset k _ ((hI k hk).step hstep)
    | leave k hk _ _ _ => exact hset k _ (hI k hk)

/-! ## Loops that still run -/

/-- The condition is about two kinds of steps. -/
theorem forUnspent_other {a : ServerStep} (haccept : ∀ fd, a ≠ .accept fd)
    (hrun : a ≠ .runFunction) : ForUnspent s a t :=
  ⟨fun fd ha => absurd ha (haccept fd), fun _ _ ha => absurd ha hrun⟩

/--
**Connections go to loops that run: in every run in which no connection is accepted on the turn of a
spent loop and none is queued on one, every loop that was handed out and every loop that an `Init`
was queued on was in `Loop` then.**
-/
theorem handed_to_running {threadNum : Nat}
    (h : ((servers wakeupFd threadNum).only ForUnspent).Reachable s) : s.HandedToRunning := by
  refine h.invariant_only (I := HandedToRunning) ?_ ?_
  · rintro s rfl
    constructor
    · intro e he
      exact absurd he List.not_mem_nil
    · intro e he
      exact absurd he List.not_mem_nil
  · intro s a t hr hI hs hunspent
    have hok := ok_of_reachable hr
    -- a worker whose loop is not spent has not left it
    have hin : ∀ k < s.started, ¬ (s.threads k).loop.Spent → (s.take k).inLoop = true := by
      intro k hk hnot
      by_contra hout
      exact hnot (hok.left k hk (by simpa [take] using hout))
    cases hs with
    | spawn _ _ _ => exact hI
    | getLoop _ _ => exact hI
    | listen _ _ => exact hI
    | wait _ _ _ => exact hI
    | @accept k pool fd hmain _ hk =>
      obtain ⟨hturn, hlt, -⟩ := hok.getNextLoop hmain hk
      have hnot := hunspent.1 fd rfl
      rw [← hturn] at hnot
      have hlast : ∀ e ∈ [s.take k], e.inLoop = true :=
        List.forall_mem_singleton.mpr (hin k hlt hnot)
      exact ⟨List.forall_mem_append.mpr ⟨hI.1, hlast⟩, hI.2⟩
    | @runFunction k fd hmain _ =>
      have hnot := hunspent.2 k fd rfl hmain
      have hlast : ∀ e ∈ [s.take k], e.inLoop = true :=
        List.forall_mem_singleton.mpr (hin k (hok.at hmain).1 hnot)
      exact ⟨hI.1, List.forall_mem_append.mpr ⟨hI.2, hlast⟩⟩
    | accepted _ => exact hI
    | worker _ _ _ _ _ => exact hI
    | leave _ _ _ _ _ => exact hI

/-! ## One worker -/

/-- A server with one worker, whose eventfd is 3, when the main loop is about to wait. -/
def listening : Server :=
  let s := (Server.construct 1).spawn 3 0
  { s with main := .polling, pool := s.pool.push 0 }

theorem listening_reachable :
    ((servers (fun _ => 3) 1).only ForUnspent).Reachable listening := by
  have h0 : ((servers (fun _ => 3) 1).only ForUnspent).Reachable (Server.construct 1) := .init rfl
  have h1 := h0.step ⟨ServerSteps.spawn 0 rfl (by decide), forUnspent_other (by simp) (by simp)⟩
  have h2 := h1.step ⟨ServerSteps.getLoop rfl rfl, forUnspent_other (by simp) (by simp)⟩
  exact h2.step ⟨ServerSteps.listen rfl (by decide), forUnspent_other (by simp) (by simp)⟩

/-- Its pool, in which it is always the turn of the same loop. -/
def poolOfOne : EventLoopThreadPool := ⟨1, 0, [0], fun _ => Nat.one_pos⟩

/-- A connection comes in, on descriptor 5, and its `Init` is queued. -/
def welcome (s : Server) : Server :=
  (({ s with main := .accepting } : Server).accept 0 poolOfOne 5).runFunction 0 5

theorem unspent_construct : ¬ (EventLoop.construct 3 0).Spent := by
  intro h
  exact absurd h.2 (by decide)

theorem free_construct {wakeupFd : Fd} {now : Nat} (id : HttpId) :
    ¬ (EventLoop.construct wakeupFd now).Owned id := by
  rintro (hr | ⟨n, hn, -⟩ | hp)
  · change Function.update (fun _ => none) wakeupFd (some none) 0 = some (some id) at hr
    rw [Function.update_apply] at hr
    split at hr <;> simp at hr
  · exact absurd hn List.not_mem_nil
  · exact absurd hp List.not_mem_nil

theorem welcome_reachable :
    ((servers (fun _ => 3) 1).only ForUnspent).Reachable listening.welcome := by
  have h1 := listening_reachable.step
    ⟨ServerSteps.wait true rfl (by decide), forUnspent_other (by simp) (by simp)⟩
  have h2 := h1.step ⟨@ServerSteps.accept (fun _ => 3) _ 0 poolOfOne 5 rfl (by decide) rfl,
    fun _ _ => unspent_construct, fun _ _ ha => ServerStep.noConfusion ha⟩
  refine h2.step ⟨@ServerSteps.runFunction (fun _ => 3) _ 0 5 rfl
    (Steps.accept 5 (by decide) fun id hid => absurd hid (free_construct id)), ?_, ?_⟩
  · intro _ ha
    exact ServerStep.noConfusion ha
  · intro k fd _ hk
    cases hk
    exact unspent_construct

/-- The connection goes to the worker while its loop runs. -/
theorem handed_to_running_welcome :
    listening.welcome.handed = [⟨0, true⟩] ∧ listening.welcome.HandedToRunning :=
  ⟨rfl, handed_to_running welcome_reachable⟩

/-! ## Loops that do not -/

theorem not_handedToRunning {e : Handed} (he : e ∈ s.handed ∨ e ∈ s.queued)
    (hout : e.inLoop = false) : ¬ s.HandedToRunning := by
  intro h
  have hin : e.inLoop = true := he.elim (h.1 e) (h.2 e)
  rw [hout] at hin
  exact Bool.false_ne_true hin

/-- A spent loop is left, or its worker can leave it now. -/
theorem exists_left {threadNum : Nat} (h : (servers wakeupFd threadNum).Reachable s) {k : Nat}
    (hk : k < s.started) (hspent : (s.threads k).loop.Spent) :
    ∃ u, (servers wakeupFd threadNum).Reachable u ∧ (u.take k).inLoop = false ∧
      (u.threads k).loop = (s.threads k).loop ∧ u.main = s.main ∧ u.pool = s.pool := by
  by_cases hin : (s.threads k).inLoop = true
  · have hleave : ServerSteps wakeupFd s (.leave k) _ :=
      .leave k hk hin hspent.1 (Nat.not_lt_of_le hspent.2)
    refine ⟨_, h.step hleave, ?_, ?_, rfl, rfl⟩
    · simp [take]
    · simp
  · exact ⟨s, h, by simpa [take] using hin, rfl, rfl, rfl⟩

/--
**Where a step does not meet the condition the server goes wrong: the same step, taken when the
worker has left its loop, hands the loop out or queues an `Init` on it all the same.**
-/
theorem handed_to_left {threadNum : Nat} (h : (servers wakeupFd threadNum).Reachable s)
    {a : ServerStep} (hs : ServerSteps wakeupFd s a t) (hnot : ¬ ForUnspent s a t) :
    ∃ u v, (servers wakeupFd threadNum).Reachable u ∧ ServerSteps wakeupFd u a v ∧
      ¬ v.HandedToRunning := by
  have hok := ok_of_reachable h
  cases hs with
  | @accept k pool fd hmain hfd hk =>
    obtain ⟨hturn, hlt, -⟩ := hok.getNextLoop hmain hk
    have hspent : (s.threads k).loop.Spent := by
      by_contra hunspent
      refine hnot ⟨fun _ _ => by rwa [← hturn], fun _ _ ha => ServerStep.noConfusion ha⟩
    obtain ⟨u, hu, hout, -, humain, hupool⟩ := exists_left h hlt hspent
    refine ⟨u, _, hu, .accept fd (humain.trans hmain) hfd (hupool ▸ hk), ?_⟩
    exact not_handedToRunning (Or.inl (List.mem_append_right _ (List.mem_singleton_self _))) hout
  | @runFunction k fd hmain hstep =>
    have hspent : (s.threads k).loop.Spent := by
      by_contra hunspent
      refine hnot ⟨fun _ ha => ServerStep.noConfusion ha, fun j fd' _ hj => ?_⟩
      rw [hmain] at hj
      cases hj
      exact hunspent
    obtain ⟨u, hu, hout, hloop, humain, -⟩ := exists_left h (hok.at hmain).1 hspent
    refine ⟨u, _, hu, .runFunction (humain.trans hmain) (hloop ▸ hstep), ?_⟩
    exact not_handedToRunning (Or.inr (List.mem_append_right _ (List.mem_singleton_self _))) hout
  | _ => exact absurd (forUnspent_other (by simp) (by simp)) hnot

/-- What has been so since a worker left its loop in `s`. -/
structure Since (s : Server) (k : Nat) (t : Server) : Prop where
  started : k < t.started
  out : (t.threads k).inLoop = false
  threadNum : t.pool.threadNum = s.pool.threadNum
  handed : ∃ later, t.handed = s.handed ++ later ∧ ∀ e ∈ later, e.loop = k → e.inLoop = false

theorem Since.setThread {k : Nat} (h : Since s k t) (j : Nat) (thread : EventLoopThread)
    (hj : j = k → thread.inLoop = false) : Since s k (t.setThread j thread) := by
  refine ⟨h.started, ?_, h.threadNum, h.handed⟩
  by_cases hkj : k = j
  · rw [hkj, setThread_self]
    exact hj hkj.symm
  · rw [setThread_ne _ _ hkj]
    exact h.out

/-- **A worker that has left does not come back.** -/
theorem Since.step {k : Nat} (h : Since s k t) {a : ServerStep} {u : Server}
    (hs : ServerSteps wakeupFd t a u) : Since s k u := by
  cases hs with
  | spawn now _ _ =>
    have hne : k ≠ t.started := Nat.ne_of_lt h.started
    have hset := h.setThread t.started ⟨EventLoop.construct (wakeupFd t.started) now, true⟩
      fun hk => absurd hk.symm hne
    exact ⟨Nat.lt_succ_of_lt h.started, hset.out, h.threadNum, h.handed⟩
  | getLoop _ _ => exact ⟨h.started, h.out, h.threadNum, h.handed⟩
  | listen _ _ => exact ⟨h.started, h.out, h.threadNum, h.handed⟩
  | wait _ _ _ => exact ⟨h.started, h.out, h.threadNum, h.handed⟩
  | @accept j pool fd _ _ hj =>
    obtain ⟨later, hlater, hall⟩ := h.handed
    refine ⟨h.started, h.out, ?_, later ++ [t.take j], ?_, ?_⟩
    · exact (EventLoopThreadPool.threadNum_getNextLoop hj).trans h.threadNum
    · change t.handed ++ [t.take j] = s.handed ++ (later ++ [t.take j])
      rw [hlater, List.append_assoc]
    · refine List.forall_mem_append.mpr ⟨hall, List.forall_mem_singleton.mpr ?_⟩
      intro hjk
      have hthread : t.threads j = t.threads k := congrArg t.threads hjk
      exact (congrArg EventLoopThread.inLoop hthread).trans h.out
  | @runFunction j fd _ _ =>
    have hset := h.setThread j ⟨(t.threads j).loop.accept fd, (t.threads j).inLoop⟩
      fun hj => by rw [hj]; exact h.out
    exact ⟨hset.started, hset.out, hset.threadNum, hset.handed⟩
  | accepted _ => exact ⟨h.started, h.out, h.threadNum, h.handed⟩
  | worker j _ hin _ _ =>
    refine h.setThread j _ fun hj => ?_
    rw [hj]
    exact h.out
  | leave j _ _ _ _ => exact h.setThread j _ fun _ => rfl

/-- Among the first `n` numbers from `m` on there is one that leaves `k` when divided by `n`. -/
theorem exists_mod_eq {n k : Nat} (hk : k < n) (m : Nat) : ∃ i, m ≤ i ∧ i < m + n ∧ i % n = k := by
  have hm : m % n < n := Nat.mod_lt _ (by omega)
  have hround : m + (k + (n - m % n)) = k + n * (m / n + 1) := by
    have := Nat.div_add_mod m n
    rw [Nat.mul_add, Nat.mul_one]
    omega
  refine ⟨m + (k + (n - m % n)) % n, Nat.le_add_right _ _, ?_, ?_⟩
  · exact Nat.add_lt_add_left (Nat.mod_lt _ (by omega)) m
  · rw [Nat.add_mod_mod, hround, Nat.add_mul_mod_self_left, Nat.mod_eq_of_lt hk]

/--
**The defect does not stay hidden: after a worker has left its loop, one of any `thread_num` loops
handed out in a row is that loop.**
-/
theorem left_handed_again {threadNum : Nat} (h : (servers wakeupFd threadNum).Reachable s)
    {k : Nat} (hk : k < s.started) (hout : (s.threads k).inLoop = false)
    (ht : ((servers wakeupFd threadNum).after s).Reachable t)
    (hmany : s.handed.length + s.pool.threadNum ≤ t.handed.length) : ¬ t.HandedToRunning := by
  have hsince : Since s k t := by
    refine ht.invariant (I := Since s k) ?_ fun t a u _ hI hs => hI.step hs
    rintro t rfl
    exact ⟨hk, hout, rfl, [], (List.append_nil _).symm, fun e he => absurd he List.not_mem_nil⟩
  have hturns := (ok_of_reachable (h.trans ht)).turns
  have hlt : k < s.pool.threadNum := Nat.lt_of_lt_of_le hk (ok_of_reachable h).started_le
  obtain ⟨i, hi, hi', hik⟩ := exists_mod_eq hlt s.handed.length
  obtain ⟨later, hlater, hall⟩ := hsince.handed
  -- the hand-out number `i` is one of those since then
  have hget : (t.handed.map Handed.loop)[i]? = some k := by
    rw [hturns, List.getElem?_map, List.getElem?_range (by omega), hsince.threadNum,
      Option.map_some, hik]
  rw [hlater, List.map_append, List.getElem?_append_right (by simpa using hi)] at hget
  obtain ⟨e, he, hek⟩ := List.mem_map.mp (List.mem_of_getElem? hget)
  exact not_handedToRunning (Or.inl (hlater ▸ List.mem_append_right _ he)) (hall e he hek)

/-! ## A worker that leaves -/

/-- The loop of the worker after `n` rounds in which nothing happened. -/
def idleLoop (n : Nat) : EventLoop := { EventLoop.construct 3 0 with timeoutCount := n }

theorem setLoop_setLoop (k : Nat) (l l' : EventLoop) :
    (s.setLoop k l).setLoop k l' = s.setLoop k l' := by
  simp [setLoop, setThread, Function.update_idem]

theorem setLoop_self (s : Server) (k : Nat) : s.setLoop k (s.threads k).loop = s := by
  simp [setLoop, setThread]

/-- One more of these rounds: the wait, `DoCallbacks` and `HandleExpire`. -/
theorem idle_round {n : Nat} (hn : n < 5)
    (h : (servers (fun _ => 3) 1).Reachable (listening.setLoop 0 (idleLoop n))) :
    (servers (fun _ => 3) 1).Reachable (listening.setLoop 0 (idleLoop (n + 1))) := by
  have hstep : ∀ {l l' : EventLoop} {a : LoopStep},
      (servers (fun _ => 3) 1).Reachable (listening.setLoop 0 l) → Steps 3 l a l' →
      (∀ fd, a ≠ .accept fd) → (servers (fun _ => 3) 1).Reachable (listening.setLoop 0 l') := by
    intro l l' a hl hs ha
    have := hl.step (ServerSteps.worker 0 Nat.one_pos rfl ha (t := l') hs)
    rwa [setLoop_setLoop] at this
  have h1 := hstep h (Steps.wait [] rfl hn List.nodup_nil fun r hr => absurd hr List.not_mem_nil)
    (by simp)
  have h2 := hstep h1 (Steps.swap rfl) (by simp)
  have h3 := hstep h2 (Steps.ran rfl) (by simp)
  exact hstep h3 (Steps.rest rfl (Or.inl rfl)) (by simp)

/-- The worker has waited in vain five times and left its loop. -/
def deserted : Server :=
  let s := listening.setLoop 0 (idleLoop 5)
  s.setThread 0 { s.threads 0 with inLoop := false }

theorem deserted_reachable : (servers (fun _ => 3) 1).Reachable deserted := by
  have h0 : (servers (fun _ => 3) 1).Reachable (listening.setLoop 0 (idleLoop 0)) := by
    have hself : listening.setLoop 0 (idleLoop 0) = listening := listening.setLoop_self 0
    rw [hself]
    exact listening_reachable.of_only
  have h5 := idle_round (by decide) (idle_round (by decide) (idle_round (by decide)
    (idle_round (by decide) (idle_round (by decide) h0))))
  exact h5.step (ServerSteps.leave 0 (by decide) rfl rfl (by decide))

/-- **The next connection is handed to it all the same, and its `Init` is queued there.** -/
theorem handed_to_deserted :
    (servers (fun _ => 3) 1).Reachable deserted.welcome ∧
      deserted.welcome.handed = [⟨0, false⟩] ∧ deserted.welcome.queued = [⟨0, false⟩] ∧
      ¬ deserted.welcome.HandedToRunning := by
  refine ⟨?_, rfl, rfl, ?_⟩
  · have h1 := deserted_reachable.step (ServerSteps.wait true rfl (by decide))
    have h2 := h1.step (@ServerSteps.accept (fun _ => 3) _ 0 poolOfOne 5 rfl (by decide) rfl)
    exact h2.step (@ServerSteps.runFunction (fun _ => 3) _ 0 5 rfl
      (Steps.accept 5 (by decide) fun id hid => absurd hid (@free_construct 3 0 id)))
  · exact not_handedToRunning (Or.inl (List.mem_singleton_self (⟨0, false⟩ : Handed))) rfl

end Server

end FlashWeb
