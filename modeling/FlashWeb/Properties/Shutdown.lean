import FlashWeb.Lib.Simulation
import FlashWeb.Properties.Progress
import FlashWeb.Shutdown

/-!
# How the process ends

The destructor of the pool relies on two things: that a loop whose flag is cleared returns, and that
the thread of a loop that has returned ends. `Ok` holds of every reachable process; from it follow
the order of what the destructor does (`shutdown_in_order`), that a worker comes out of `EpollWait`
at most once more (`one_wait_after_quit`), and that nothing keeps `main` from returning
(`shutdown_completes`).
-/

namespace FlashWeb

open Lib System

/-- Steps other than the clock's. -/
def ProcessStep.Own : ProcessStep → Prop
  | .worker _ (.tick _) => False
  | _ => True

/-- Nothing comes in: no wait finds anything, and there is no connection to accept. -/
def Process.Silent (_ : Process) : ProcessStep → Process → Prop
  | .serve (.wait ready), _ => ready = false
  | .serve (.accept _), _ => False
  | .worker _ (.wait returned), _ => returned = []
  | _, _ => True

namespace Process

variable {wakeupFd : Nat → Fd} {threadNum : Nat} {s t : Process} {a : ProcessStep}

/-! ## A small run -/

/-- One worker that waits, and a main loop that has waited in vain `n` times. -/
def idling (n : Nat) : Process :=
  { (construct 1).setWaiting 0 true with
    server := { Server.listening with timeoutCount := n } }

/-- `Quit` has been called on the worker that waits. -/
def joining : Process :=
  { (idling 5).quit 0 with main := .joining 0 }

theorem idling_reachable : ∀ n ≤ 5, (processes (fun _ => 3) 1).Reachable (idling n)
  | 0, _ => by
    have h0 : (processes (fun _ => 3) 1).Reachable (construct 1) := .init rfl
    have h1 := h0.step (ProcessSteps.serve (a := .spawn 0) rfl trivial
      (ServerSteps.spawn 0 rfl Nat.one_pos))
    have h2 := h1.step (ProcessSteps.serve (a := .getLoop) rfl trivial
      (ServerSteps.getLoop rfl rfl))
    have h3 := h2.step (ProcessSteps.serve (a := .listen) rfl trivial
      (ServerSteps.listen rfl (Nat.lt_irrefl 1)))
    exact h3.step (ProcessSteps.check 0 ⟨Nat.one_pos, rfl, rfl, rfl⟩ rfl)
  | n + 1, hn =>
    (idling_reachable n (Nat.le_of_succ_le hn)).step
      (ProcessSteps.serve (a := .wait false) rfl trivial
        (ServerSteps.wait false rfl (Nat.lt_of_succ_le hn)))

theorem joining_reachable : (processes (fun _ => 3) 1).Reachable joining := by
  have h1 := (idling_reachable 5 (Nat.le_refl 5)).step
    (ProcessSteps.startReturns rfl rfl (Nat.lt_irrefl 5))
  have h2 := h1.step (ProcessSteps.quit rfl rfl)
  exact h2.step (ProcessSteps.quitAll rfl (Nat.le_refl 1))

/-! ## The invariant -/

/-- What holds of the workers. -/
structure WorkersOk (wakeupFd : Nat → Fd) (s : Process) : Prop where
  loops : ∀ k < s.server.started, (loops (wakeupFd k)).Reachable (s.thread k).loop
  waiting : ∀ k, s.waiting k = true → k < s.server.started ∧ (s.thread k).inLoop = true ∧
    (s.thread k).loop.phase = .polling ∧ (s.thread k).loop.timeoutCount < 5
  ended : ∀ k, s.ended k = true → k < s.server.started ∧ (s.thread k).inLoop = false
  left : ∀ k < s.server.started, (s.thread k).inLoop = false → s.loopCondition k = false

/-- What holds of the calls of `Quit`: each loop in turn, and a destroyed one only if it had waited
in vain. -/
structure QuitsOk (s : Process) : Prop where
  turns : s.quits.map QuitCall.loop = List.range s.quits.length
  flags : ∀ k, s.isLooping k = false ↔ k < s.quits.length
  dead : ∀ c ∈ s.quits, c.alive = false →
    (s.thread c.loop).inLoop = false ∧ 5 ≤ (s.thread c.loop).loop.timeoutCount

/-- What has been done when `main` is at a phase. -/
def PhaseOk (s : Process) : MainPhase → Prop
  | .serving => s.quits = []
  | .quitting i => s.quits.length = i ∧ i ≤ s.server.started
  | .joining i => s.quits.length = s.server.started ∧ i ≤ s.server.started ∧
      ∀ k < i, s.ended k = true
  | _ => s.quits.length = s.server.started ∧ ∀ k < s.server.started, s.ended k = true

/-- What holds of every process. -/
structure Ok (wakeupFd : Nat → Fd) (threadNum : Nat) (s : Process) : Prop where
  serving : s.main = .serving → (servers wakeupFd threadNum).Reachable s.server
  pool : s.main ≠ .serving → s.server.started = threadNum ∧
    s.server.pool.eventloops = List.range threadNum
  workers : s.WorkersOk wakeupFd
  quits : s.QuitsOk
  phase : s.PhaseOk s.main

theorem Ok.at (h : s.Ok wakeupFd threadNum) {m : MainPhase} (hm : s.main = m) : s.PhaseOk m :=
  hm ▸ h.phase

theorem ok_construct (wakeupFd : Nat → Fd) (threadNum : Nat) :
    (construct threadNum).Ok wakeupFd threadNum where
  serving _ := .init rfl
  pool h := absurd rfl h
  workers := by
    constructor
    · exact fun k hk => absurd hk (Nat.not_lt_zero k)
    · simp [construct]
    · simp [construct]
    · exact fun k hk => absurd hk (Nat.not_lt_zero k)
  quits := ⟨rfl, by simp [construct], by simp [construct]⟩
  phase := rfl

/-! ## The main thread -/

/-- The main thread queues callbacks on the loops of the workers and starts new ones. -/
structure Extends (s t : Server) : Prop where
  started : s.started ≤ t.started
  inLoop : ∀ k < s.started, (t.threads k).inLoop = (s.threads k).inLoop
  phase : ∀ k < s.started, (t.threads k).loop.phase = (s.threads k).loop.phase
  count : ∀ k < s.started, (t.threads k).loop.timeoutCount = (s.threads k).loop.timeoutCount
  new : ∀ k < t.started, s.started ≤ k → (t.threads k).inLoop = true

theorem Extends.of_threads {s t : Server} (hstarted : t.started = s.started)
    (hthreads : t.threads = s.threads) : Extends s t where
  started := hstarted.ge
  inLoop k _ := by rw [hthreads]
  phase k _ := by rw [hthreads]
  count k _ := by rw [hthreads]
  new k hk hle := absurd (hstarted ▸ hk) (Nat.not_lt_of_le hle)

theorem extends_of_main {s t : Server} {a : ServerStep} (ha : a.OfMain)
    (hs : ServerSteps wakeupFd s a t) : Extends s t := by
  cases hs with
  | spawn now =>
    have hne : ∀ k < s.started, (s.spawn (wakeupFd s.started) now).threads k = s.threads k :=
      fun k hk => Server.setThread_ne s _ hk.ne
    refine ⟨Nat.le_succ _, fun k hk => by rw [hne k hk], fun k hk => by rw [hne k hk],
      fun k hk => by rw [hne k hk], fun k hk hle => ?_⟩
    obtain rfl : k = s.started := Nat.le_antisymm (Nat.le_of_lt_succ hk) hle
    show (Function.update s.threads s.started _ s.started).inLoop = true
    rw [Function.update_self]
  | @runFunction k fd =>
    have hthread : ∀ j, ((s.runFunction k fd).threads j).inLoop = (s.threads j).inLoop ∧
        ((s.runFunction k fd).threads j).loop.phase = (s.threads j).loop.phase ∧
        ((s.runFunction k fd).threads j).loop.timeoutCount =
          (s.threads j).loop.timeoutCount := by
      intro j
      show (Function.update s.threads k _ j).inLoop = _ ∧
        (Function.update s.threads k _ j).loop.phase = _ ∧
        (Function.update s.threads k _ j).loop.timeoutCount = _
      by_cases hj : j = k
      · subst hj
        rw [Function.update_self]
        exact ⟨rfl, rfl, rfl⟩
      · rw [Function.update_of_ne hj]
        exact ⟨rfl, rfl, rfl⟩
    exact ⟨Nat.le_refl _, fun j _ => (hthread j).1, fun j _ => (hthread j).2.1,
      fun j _ => (hthread j).2.2, fun j hj hle => absurd hj (Nat.not_lt_of_le hle)⟩
  | worker => exact absurd ha id
  | leave => exact absurd ha id
  | _ => exact .of_threads rfl rfl

theorem WorkersOk.extends (h : s.WorkersOk wakeupFd) {u : Server} (he : Extends s.server u)
    (hr : (servers wakeupFd threadNum).Reachable u) :
    WorkersOk wakeupFd { s with server := u } where
  loops := Server.worker_reachable hr
  waiting k hk := by
    obtain ⟨hlt, hin, hphase, hcount⟩ := h.waiting k hk
    exact ⟨hlt.trans_le he.started, (he.inLoop k hlt).trans hin, (he.phase k hlt).trans hphase,
      (he.count k hlt).trans_lt hcount⟩
  ended k hk := by
    obtain ⟨hlt, hin⟩ := h.ended k hk
    exact ⟨hlt.trans_le he.started, (he.inLoop k hlt).trans hin⟩
  left k hk hin := by
    by_cases hold : k < s.server.started
    · have hleft := h.left k hold ((he.inLoop k hold).symm.trans hin)
      show (s.isLooping k && decide ((u.threads k).loop.timeoutCount < 5)) = false
      rw [he.count k hold]
      exact hleft
    · have hnew := he.new k hk (Nat.le_of_not_lt hold)
      rw [show (u.threads k).inLoop = false from hin] at hnew
      exact absurd hnew Bool.false_ne_true

theorem Ok.serve (h : s.Ok wakeupFd threadNum) (hmain : s.main = .serving) {a : ServerStep}
    (ha : a.OfMain) {u : Server} (hs : ServerSteps wakeupFd s.server a u) :
    Ok wakeupFd threadNum { s with server := u } := by
  have hr := (h.serving hmain).step hs
  have hquits : s.quits = [] := h.at hmain
  refine ⟨fun _ => hr, fun hne => absurd hmain hne, h.workers.extends (extends_of_main ha hs) hr,
    ⟨h.quits.turns, h.quits.flags, fun c hc => ?_⟩, ?_⟩
  · rw [show s.quits = [] from hquits] at hc
    exact absurd hc List.not_mem_nil
  · rw [show ({ s with server := u } : Process).main = .serving from hmain]
    exact hquits

/-- The number of threads does not change. -/
theorem threadNum_of_reachable {s : Server} (h : (servers wakeupFd threadNum).Reachable s) :
    s.pool.threadNum = threadNum := by
  refine h.invariant (I := fun s => s.pool.threadNum = threadNum) ?_ fun s a t _ hI hs => ?_
  · rintro s rfl
    rfl
  · cases hs with
    | accept fd _ _ hk => exact (EventLoopThreadPool.threadNum_getNextLoop hk).trans hI
    | _ => exact hI

/-- `main` goes on in `~EventLoopThreadPool` or behind it. -/
theorem Ok.enter (h : s.Ok wakeupFd threadNum) {m : MainPhase} (hm : m ≠ .serving)
    (hpool : s.server.started = threadNum ∧ s.server.pool.eventloops = List.range threadNum)
    (hphase : s.PhaseOk m) : Ok wakeupFd threadNum { s with main := m } where
  serving hs := absurd hs hm
  pool _ := hpool
  workers := ⟨h.workers.loops, h.workers.waiting, h.workers.ended, h.workers.left⟩
  quits := ⟨h.quits.turns, h.quits.flags, h.quits.dead⟩
  phase := by
    show PhaseOk { s with main := m } m
    cases m <;> exact hphase

/-- When `start` returns every thread is there, and the pool has a pointer to every loop. -/
theorem Ok.startReturns (h : s.Ok wakeupFd threadNum) (hmain : s.main = .serving)
    (hpolling : s.server.main = .polling) :
    Ok wakeupFd threadNum { s with main := .quitting 0 } := by
  have hr := h.serving hmain
  have hn := threadNum_of_reachable hr
  obtain ⟨hstarted, hloops⟩ : s.server.started = s.server.pool.threadNum ∧
      s.server.pool.eventloops = List.range s.server.started :=
    (Server.ok_of_reachable hr).at hpolling
  have hquits : s.quits = [] := h.at hmain
  refine h.enter (by simp) ⟨hstarted.trans hn, ?_⟩ ⟨?_, Nat.zero_le _⟩
  · rw [hloops, hstarted, hn]
  · rw [hquits]
    rfl

/-- `Quit` clears one flag more. -/
theorem QuitsOk.quit (h : s.QuitsOk) (hw : s.WorkersOk wakeupFd)
    {k : Nat} (hk : s.quits.length = k) : (s.quit k).QuitsOk := by
  have hflag : s.isLooping k = true := by
    rw [← Bool.not_eq_false, h.flags, hk]
    exact Nat.lt_irrefl k
  have hlen : (s.quit k).quits.length = k + 1 := by simp [Process.quit, hk]
  constructor
  · rw [hlen, List.range_succ, ← hk, ← h.turns]
    simp [Process.quit, hk]
  · intro j
    rw [hlen, show (s.quit k).isLooping = Function.update s.isLooping k false from if_pos hflag]
    by_cases hj : j = k
    · subst hj
      simp
    · rw [Function.update_of_ne hj, h.flags, hk, Nat.lt_succ_iff_lt_or_eq, or_iff_left hj]
  · intro c hc hdead
    rcases List.mem_append.mp hc with hc | hc
    · exact h.dead c hc hdead
    · obtain rfl := List.mem_singleton.mp hc
      -- the loop was destroyed while its flag was set
      obtain ⟨hlt, hin⟩ := hw.ended k (by simpa using hdead)
      have hcond := hw.left k hlt hin
      rw [loopCondition, hflag, Bool.true_and, decide_eq_false_iff_not] at hcond
      exact ⟨hin, Nat.le_of_not_lt hcond⟩

/-- Once cleared, always cleared. -/
theorem quit_isLooping {j : Nat} (hflag : s.isLooping j = false) (k : Nat) :
    (s.quit k).isLooping j = false := by
  unfold Process.quit
  dsimp only
  split
  · by_cases hjk : j = k
    · subst hjk
      exact Function.update_self ..
    · rw [Function.update_of_ne hjk]
      exact hflag
  · exact hflag

/-- A cleared flag ends no wait. -/
theorem WorkersOk.quit (h : s.WorkersOk wakeupFd) (k : Nat) : (s.quit k).WorkersOk wakeupFd where
  loops := h.loops
  waiting := h.waiting
  ended := h.ended
  left j hj hin := by
    have hcond := h.left j hj hin
    unfold loopCondition at hcond ⊢
    rw [Bool.and_eq_false_iff] at hcond ⊢
    exact hcond.imp_left fun hflag => quit_isLooping hflag k

/-- The loop that is told to quit is the one whose turn it is. -/
theorem Ok.quit (h : s.Ok wakeupFd threadNum) {i k : Nat} (hmain : s.main = .quitting i)
    (hk : s.server.pool.eventloops[i]? = some k) :
    Ok wakeupFd threadNum { s.quit k with main := .quitting (i + 1) } := by
  have hpool := h.pool (by rw [hmain]; simp)
  obtain ⟨hlen, -⟩ : s.quits.length = i ∧ i ≤ s.server.started := h.at hmain
  rw [hpool.2, List.getElem?_eq_some_iff] at hk
  obtain ⟨hi, hki⟩ := hk
  rw [List.getElem_range] at hki
  subst hki
  rw [List.length_range] at hi
  have hw := h.workers.quit i
  have hq := h.quits.quit h.workers hlen
  refine ⟨fun hm => MainPhase.noConfusion hm, fun _ => hpool,
    ⟨hw.loops, hw.waiting, hw.ended, hw.left⟩, ⟨hq.turns, hq.flags, hq.dead⟩, ?_, ?_⟩
  · show (s.quit i).quits.length = i + 1
    simp [Process.quit, hlen]
  · exact (Nat.succ_le_of_lt hi).trans hpool.1.ge

/-! ## The workers -/

/-- In `EpollWait` only the clock moves. -/
theorem polling_step {wakeupFd : Fd} {l l' : EventLoop} {a : LoopStep}
    (hs : Steps wakeupFd l a l') (hphase : l.phase = .polling) (hwait : a.isWait = false)
    (haccept : ∀ fd, a ≠ .accept fd) :
    l'.phase = .polling ∧ l'.timeoutCount = l.timeoutCount := by
  cases hs with
  | tick ms => exact ⟨hphase, rfl⟩
  | accept fd => exact absurd rfl (haccept fd)
  | wait returned => exact absurd hwait (by simp [LoopStep.isWait])
  | wakeup hp => simp [hphase] at hp
  | begin d hp => simp [hphase] at hp
  | effect hp => simp [hphase] at hp
  | handled hp => simp [hphase] at hp
  | swap hp => simp [hphase] at hp
  | callback hp => simp [hphase] at hp
  | ran hp => simp [hphase] at hp
  | expire n hp => simp [hphase] at hp
  | rest hp => simp [hphase] at hp

/-- The worker `k` takes a step of its loop. -/
def work (s : Process) (k : Nat) (a : LoopStep) (l : EventLoop) : Process :=
  { s.setWaiting k (s.waiting k && !a.isWait) with server := s.server.setLoop k l }

@[simp] theorem work_thread_self (s : Process) (k : Nat) (a : LoopStep) (l : EventLoop) :
    (s.work k a l).thread k = { s.thread k with loop := l } :=
  Server.setThread_self ..

theorem work_thread_ne {k j : Nat} (a : LoopStep) (l : EventLoop) (hj : j ≠ k) :
    (s.work k a l).thread j = s.thread j :=
  Server.setThread_ne _ _ hj

theorem work_inLoop (k j : Nat) (a : LoopStep) (l : EventLoop) :
    ((s.work k a l).thread j).inLoop = (s.thread j).inLoop := by
  by_cases hj : j = k
  · subst hj
    rw [work_thread_self]
  · rw [work_thread_ne a l hj]

theorem WorkersOk.work (h : s.WorkersOk wakeupFd) {k : Nat} {a : LoopStep} {l : EventLoop}
    (hin : (s.thread k).inLoop = true) (haccept : ∀ fd, a ≠ .accept fd)
    (hs : Steps (wakeupFd k) (s.thread k).loop a l) : (s.work k a l).WorkersOk wakeupFd where
  loops j hj := by
    by_cases hjk : j = k
    · subst hjk
      rw [work_thread_self]
      exact (h.loops j hj).step hs
    · rw [work_thread_ne a l hjk]
      exact h.loops j hj
  waiting j hj := by
    by_cases hjk : j = k
    · subst hjk
      have hboth : Function.update s.waiting j (s.waiting j && !a.isWait) j = true := hj
      rw [Function.update_self, Bool.and_eq_true, Bool.not_eq_true'] at hboth
      obtain ⟨hlt, -, hphase, hcount⟩ := h.waiting j hboth.1
      obtain ⟨hphase', hcount'⟩ := polling_step hs hphase hboth.2 haccept
      rw [work_thread_self]
      exact ⟨hlt, hin, hphase', hcount'.trans_lt hcount⟩
    · rw [work_thread_ne a l hjk]
      exact h.waiting j ((Function.update_of_ne hjk ..).symm.trans hj)
  ended j hj := by
    rw [work_inLoop]
    exact h.ended j hj
  left j hj hout := by
    by_cases hjk : j = k
    · subst hjk
      rw [work_inLoop, hin] at hout
      exact absurd hout.symm Bool.false_ne_true
    · rw [work_inLoop] at hout
      rw [loopCondition, work_thread_ne a l hjk]
      exact h.left j hj hout

theorem Ok.work (h : s.Ok wakeupFd threadNum) {k : Nat} {a : LoopStep} {l : EventLoop}
    (hk : k < s.server.started) (hin : (s.thread k).inLoop = true)
    (haccept : ∀ fd, a ≠ .accept fd) (hs : Steps (wakeupFd k) (s.thread k).loop a l) :
    (s.work k a l).Ok wakeupFd threadNum where
  serving hm := (h.serving hm).step (ServerSteps.worker k hk hin haccept hs)
  pool := h.pool
  workers := h.workers.work hin haccept hs
  quits := by
    refine ⟨h.quits.turns, h.quits.flags, fun c hc hdead => ?_⟩
    obtain ⟨hout, hcount⟩ := h.quits.dead c hc hdead
    have hne : c.loop ≠ k := by
      intro heq
      rw [heq, hin] at hout
      exact Bool.false_ne_true hout.symm
    rw [work_thread_ne a l hne]
    exact ⟨hout, hcount⟩
  phase := h.phase

theorem Ok.check (h : s.Ok wakeupFd threadNum) {k : Nat} (hk : s.AtCondition k)
    (hcond : s.loopCondition k = true) : (s.setWaiting k true).Ok wakeupFd threadNum where
  serving := h.serving
  pool := h.pool
  workers := by
    refine ⟨h.workers.loops, fun j hj => ?_, h.workers.ended, h.workers.left⟩
    by_cases hjk : j = k
    · subst hjk
      rw [loopCondition, Bool.and_eq_true, decide_eq_true_eq] at hcond
      exact ⟨hk.started, hk.inLoop, hk.phase, hcond.2⟩
    · exact h.workers.waiting j ((Function.update_of_ne hjk ..).symm.trans hj)
  quits := ⟨h.quits.turns, h.quits.flags, h.quits.dead⟩
  phase := h.phase

@[simp] theorem leave_thread_self (s : Process) (k : Nat) :
    (s.leave k).thread k = { s.thread k with inLoop := false } :=
  Server.setThread_self ..

theorem leave_thread_ne {k j : Nat} (hj : j ≠ k) : (s.leave k).thread j = s.thread j :=
  Server.setThread_ne _ _ hj

theorem leave_loop (k j : Nat) : ((s.leave k).thread j).loop = (s.thread j).loop := by
  by_cases hj : j = k
  · subst hj
    rw [leave_thread_self]
  · rw [leave_thread_ne hj]

/-- Once out, always out. -/
theorem leave_out {k j : Nat} (hj : (s.thread j).inLoop = false) :
    ((s.leave k).thread j).inLoop = false := by
  by_cases hjk : j = k
  · subst hjk
    rw [leave_thread_self]
  · rw [leave_thread_ne hjk, hj]

theorem Ok.leave (h : s.Ok wakeupFd threadNum) {k : Nat} (hk : s.AtCondition k)
    (hcond : s.loopCondition k = false) : (s.leave k).Ok wakeupFd threadNum where
  serving hm := by
    -- while `main` is in `start` the flag is set, so the waits were in vain
    have hquits : s.quits = [] := h.at hm
    have hflag : s.isLooping k = true := by
      rw [← Bool.not_eq_false, h.quits.flags, hquits]
      exact Nat.not_lt_zero k
    rw [loopCondition, hflag, Bool.true_and, decide_eq_false_iff_not] at hcond
    exact (h.serving hm).step (ServerSteps.leave k hk.started hk.inLoop hk.phase hcond)
  pool := h.pool
  workers := by
    constructor
    · intro j hj
      rw [leave_loop]
      exact h.workers.loops j hj
    · intro j hj
      have hne : j ≠ k := by
        rintro rfl
        have hwait := hk.waiting
        rw [show s.waiting j = true from hj] at hwait
        exact Bool.false_ne_true hwait.symm
      rw [leave_thread_ne hne]
      exact h.workers.waiting j hj
    · exact fun j hj => (h.workers.ended j hj).imp_right leave_out
    · intro j hj hout
      rw [loopCondition, leave_loop]
      by_cases hjk : j = k
      · subst hjk
        exact hcond
      · rw [leave_thread_ne hjk] at hout
        exact h.workers.left j hj hout
  quits := by
    refine ⟨h.quits.turns, h.quits.flags, fun c hc hdead => ?_⟩
    rw [leave_loop]
    exact (h.quits.dead c hc hdead).imp_left leave_out
  phase := h.phase

theorem Ok.finish (h : s.Ok wakeupFd threadNum) {k : Nat} (hk : k < s.server.started)
    (hout : (s.thread k).inLoop = false) : (s.finish k).Ok wakeupFd threadNum := by
  have hmore : ∀ j, s.ended j = true → Function.update s.ended k true j = true := by
    intro j hj
    by_cases hjk : j = k
    · subst hjk
      exact Function.update_self ..
    · rw [Function.update_of_ne hjk, hj]
  refine ⟨h.serving, h.pool, ⟨h.workers.loops, h.workers.waiting, fun j hj => ?_, h.workers.left⟩,
    ⟨h.quits.turns, h.quits.flags, h.quits.dead⟩, ?_⟩
  · by_cases hjk : j = k
    · subst hjk
      exact ⟨hk, hout⟩
    · exact h.workers.ended j ((Function.update_of_ne hjk ..).symm.trans hj)
  · show PhaseOk (s.finish k) s.main
    cases hmain : s.main with
    | serving => exact h.at hmain
    | quitting i => exact h.at hmain
    | joining i =>
      obtain ⟨hlen, hle, hended⟩ := h.at hmain
      exact ⟨hlen, hle, fun j hj => hmore j (hended j hj)⟩
    | deleting =>
      obtain ⟨hlen, hended⟩ := h.at hmain
      exact ⟨hlen, fun j hj => hmore j (hended j hj)⟩
    | returned =>
      obtain ⟨hlen, hended⟩ := h.at hmain
      exact ⟨hlen, fun j hj => hmore j (hended j hj)⟩

/-- **Every step keeps the invariant.** -/
theorem Ok.step (h : s.Ok wakeupFd threadNum) (hs : ProcessSteps wakeupFd s a t) :
    t.Ok wakeupFd threadNum := by
  have hleft : ∀ {m : MainPhase}, s.main = m → m ≠ .serving →
      s.server.started = threadNum ∧ s.server.pool.eventloops = List.range threadNum :=
    fun hm hne => h.pool (hm ▸ hne)
  cases hs with
  | serve hmain ha hs => exact h.serve hmain ha hs
  | startReturns hmain hpolling _ => exact h.startReturns hmain hpolling
  | quit hmain hk => exact h.quit hmain hk
  | @quitAll i hmain hle =>
    have hpool := hleft hmain (by simp)
    obtain ⟨hlen, hi⟩ : s.quits.length = i ∧ i ≤ s.server.started := h.at hmain
    rw [hpool.2, List.length_range, ← hpool.1] at hle
    exact h.enter (by simp) hpool ⟨hlen.trans (Nat.le_antisymm hi hle), Nat.zero_le _,
      fun k hk => absurd hk (Nat.not_lt_zero k)⟩
  | @join i hmain hi hend =>
    obtain ⟨hlen, -, hended⟩ := h.at hmain
    refine h.enter (by simp) (hleft hmain (by simp)) ⟨hlen, hi, fun k hk => ?_⟩
    rcases Nat.lt_succ_iff_lt_or_eq.mp hk with hlt | rfl
    · exact hended k hlt
    · exact hend
  | joinAll hmain hle =>
    obtain ⟨hlen, -, hended⟩ := h.at hmain
    exact h.enter (by simp) (hleft hmain (by simp))
      ⟨hlen, fun k hk => hended k (hk.trans_le hle)⟩
  | delete hmain =>
    obtain ⟨hlen, hended⟩ := h.at hmain
    exact h.enter (by simp) (hleft hmain (by simp)) ⟨hlen, hended⟩
  | check k hk hcond => exact h.check hk hcond
  | worker k hwait hs =>
    cases hs with
    | worker _ hk hin haccept hs => exact h.work hk hin haccept hs
  | leave k hk hcond => exact h.leave hk hcond
  | finish k hk hout => exact h.finish hk hout

/-- **What holds of every reachable process.** -/
theorem reachable_ok (h : (processes wakeupFd threadNum).Reachable s) :
    s.Ok wakeupFd threadNum := by
  refine h.invariant (I := Ok wakeupFd threadNum) ?_ fun s a t _ hI hs => hI.step hs
  rintro s rfl
  exact ok_construct wakeupFd threadNum

/-! ## What the destructor does -/

/-- The order of what happens when the process ends. -/
structure Orderly (wakeupFd : Nat → Fd) (threadNum : Nat) (s : Process) : Prop where
  /-- `Quit` is called on each loop once, in turn -/
  quits : s.quits.map QuitCall.loop = List.range s.quits.length ∧ s.quits.length ≤ threadNum
  /-- before any thread is joined -/
  all : (∃ i, s.main = .joining i) ∨ s.main = .deleting ∨ s.main = .returned →
    s.quits.length = threadNum
  /-- on a loop that is gone only if it had waited in vain five times -/
  dead : ∀ c ∈ s.quits, c.alive = false → 5 ≤ (s.thread c.loop).loop.timeoutCount
  /-- a worker has left its loop because of that or because of `Quit` -/
  left : ∀ k < s.server.started, (s.thread k).inLoop = false →
    k < s.quits.length ∨ 5 ≤ (s.thread k).loop.timeoutCount
  /-- no thread is destroyed before it has ended -/
  joined : s.main = .deleting ∨ s.main = .returned → ∀ k < threadNum, s.ended k = true
  /-- until its worker leaves it, and then too, every loop is where a run of it leads -/
  loops : ∀ k < s.server.started, (loops (wakeupFd k)).Reachable (s.thread k).loop

/--
**The process ends in order.** In every run, however `main` and the workers take turns, `Quit` is
called once on each loop before any thread is joined, no thread is destroyed that has not ended, and
the only loops that `Quit` is called on when they are gone are those that had waited in vain five
times before.
-/
theorem shutdown_in_order (h : (processes wakeupFd threadNum).Reachable s) :
    s.Orderly wakeupFd threadNum := by
  have hok := reachable_ok h
  constructor
  · refine ⟨hok.quits.turns, ?_⟩
    cases hmain : s.main with
    | serving =>
      have hquits : s.quits = [] := hok.at hmain
      rw [hquits]
      exact Nat.zero_le _
    | quitting i =>
      obtain ⟨hlen, hle⟩ := hok.at hmain
      rw [hlen, ← (hok.pool (by simp [hmain])).1]
      exact hle
    | _ =>
      rw [(hok.at hmain).1, (hok.pool (by simp [hmain])).1]
  · rintro (⟨i, hmain⟩ | hmain | hmain) <;>
      rw [(hok.at hmain).1, (hok.pool (by simp [hmain])).1]
  · exact fun c hc hdead => (hok.quits.dead c hc hdead).2
  · intro k hk hout
    have hcond := hok.workers.left k hk hout
    rw [loopCondition, Bool.and_eq_false_iff, decide_eq_false_iff_not, hok.quits.flags,
      Nat.not_lt] at hcond
    exact hcond
  · rintro (hmain | hmain) k hk
    · rw [← (hok.pool (by simp [hmain])).1] at hk
      exact (hok.at hmain).2 k hk
    · rw [← (hok.pool (by simp [hmain])).1] at hk
      exact (hok.at hmain).2 k hk
  · exact hok.workers.loops

/-- Before the one worker is joined `Quit` has been called on its loop. -/
theorem shutdown_in_order_joining : joining.quits.length = 1 :=
  (shutdown_in_order joining_reachable).all (Or.inl ⟨0, rfl⟩)

/-! ## After `Quit` -/

/-- What an `EpollWait` of the worker `k` returned. -/
def waitOf (k : Nat) (_ : Process) : ProcessStep → Option (List (Fd × EventMask))
  | .worker j (.wait returned) => if j = k then some returned else none
  | _ => none

theorem waitOf_ne {k j : Nat} (hj : j ≠ k) (s : Process) (a : LoopStep) :
    waitOf k s (.worker j a) = none := by
  cases a <;> simp [waitOf, hj]

theorem waitOf_of_not_wait (k : Nat) (s : Process) {a : LoopStep} (ha : a.isWait = false) :
    waitOf k s (.worker k a) = none := by
  cases a <;> simp_all [waitOf, LoopStep.isWait]

theorem waitOf_wait (k : Nat) (s : Process) {a : LoopStep} (ha : a.isWait = true) :
    ∃ returned, waitOf k s (.worker k a) = some returned := by
  cases a <;> simp_all [waitOf, LoopStep.isWait]

/--
**A worker comes out of `EpollWait` at most once after `Quit`**, and not at all if it was not in it:
whatever the kernel reports and the other threads do, it handles at most one more batch of events.
-/
theorem one_wait_after_quit {k : Nat} (hflag : s.isLooping k = false)
    {returned : List (List (Fd × EventMask))}
    (ht : ((processes wakeupFd threadNum).after s).Observed (waitOf k) returned t) :
    returned.length ≤ (s.waiting k).toNat := by
  suffices hinv : t.isLooping k = false ∧
      returned.length + (t.waiting k).toNat ≤ (s.waiting k).toNat from
    (Nat.le_add_right _ _).trans hinv.2
  induction ht with
  | init h =>
    obtain rfl := h
    exact ⟨hflag, by simp⟩
  | @step seen u v a _ hs ih =>
    obtain ⟨hflag, hcount⟩ := ih
    cases hs with
    | quit hmain hk =>
      exact ⟨quit_isLooping hflag _, by simpa [waitOf, Process.quit] using hcount⟩
    | check j hj hcond =>
      have hne : k ≠ j := by
        rintro rfl
        rw [loopCondition, hflag, Bool.false_and] at hcond
        exact Bool.false_ne_true hcond
      rw [show (u.setWaiting j true).waiting k = u.waiting k from Function.update_of_ne hne ..]
      exact ⟨hflag, by simpa [waitOf] using hcount⟩
    | @worker j a l hwait hs =>
      refine ⟨hflag, ?_⟩
      show (seen ++ (waitOf k u (.worker j a)).toList).length +
        (Function.update u.waiting j (u.waiting j && !a.isWait) k).toNat ≤ _
      by_cases hjk : j = k
      · subst hjk
        rw [Function.update_self]
        cases ha : a.isWait with
        | true =>
          -- it was in `EpollWait` and is no longer
          obtain ⟨r, hr⟩ := waitOf_wait j u ha
          rw [hwait ha] at hcount
          simpa [hr] using hcount
        | false =>
          rw [waitOf_of_not_wait j u ha]
          simpa using hcount
      · rw [Function.update_of_ne (Ne.symm hjk), waitOf_ne hjk]
        simpa using hcount
    | leave j => exact ⟨hflag, by simpa [waitOf, Process.leave] using hcount⟩
    | finish j => exact ⟨hflag, by simpa [waitOf, Process.finish] using hcount⟩
    | _ => exact ⟨hflag, by simpa [waitOf] using hcount⟩

/-- The worker comes out of `EpollWait` with nothing, and has had its one wait. -/
theorem one_wait_after_quit_joining : ∃ t,
    ((processes (fun _ => 3) 1).after joining).Observed (waitOf 0) [[]] t ∧
      [([] : List (Fd × EventMask))].length ≤ (joining.waiting 0).toNat := by
  have hwait : Steps 3 (joining.thread 0).loop (.wait []) _ :=
    .wait [] rfl (by decide) List.nodup_nil fun r hr => absurd hr List.not_mem_nil
  have hstep : ProcessSteps (fun _ => 3) joining (.worker 0 (.wait [])) _ :=
    .worker 0 (fun _ => rfl) (.worker 0 Nat.one_pos rfl (by simp) hwait)
  have hinit : ((processes (fun _ => 3) 1).after joining).Observed (waitOf 0) [] joining :=
    .init rfl
  have ht := hinit.step hstep
  exact ⟨_, ht, one_wait_after_quit rfl ht⟩

/-! ## The end -/

/-- How far a worker is from its end: what it still has to leave, whether it waits, and what is left
of its turn. -/
def workerLeft (s : Process) (k : Nat) : ℕ × ℕ × ℕ × ℕ × ℕ :=
  ((s.thread k).inLoop.toNat + (!s.ended k).toNat, (s.waiting k).toNat,
    (s.thread k).loop.phase.stage.left, (s.thread k).loop.work)

/-- How far `main` is from its end. -/
def mainLeft (threadNum : Nat) (s : Process) : ℕ :=
  match s.main with
  | .joining i => threadNum - i + 2
  | .deleting => 1
  | _ => 0

/-- First what is left to leave, then the wait, then the turn. -/
abbrev WorkerLex : ℕ × ℕ × ℕ × ℕ × ℕ → ℕ × ℕ × ℕ × ℕ × ℕ → Prop :=
  Prod.Lex (· < ·) (Prod.Lex (· < ·) EventLoop.TurnLex)

theorem workerLex_wf : WellFounded WorkerLex :=
  Nat.lt_wfRel.wf.prod_lex (Nat.lt_wfRel.wf.prod_lex EventLoop.turnLex_wf)

/-- `Quit` has been called on every loop, and `main` has not returned. -/
structure Ending (wakeupFd : Nat → Fd) (threadNum : Nat) (s : Process) : Prop where
  ok : s.Ok wakeupFd threadNum
  main : (∃ i, s.main = .joining i) ∨ s.main = .deleting

theorem Ending.started (h : s.Ending wakeupFd threadNum) : s.server.started = threadNum := by
  refine (h.ok.pool ?_).1
  rcases h.main with ⟨i, hm⟩ | hm <;> simp [hm]

theorem Ending.flag (h : s.Ending wakeupFd threadNum) {k : Nat} (hk : k < s.server.started) :
    s.isLooping k = false := by
  rw [h.ok.quits.flags]
  rcases h.main with ⟨i, hm⟩ | hm
  · rw [(h.ok.at hm).1]
    exact hk
  · rw [(h.ok.at hm).1]
    exact hk

/-- The measure of the whole process. -/
def left (threadNum : Nat) (s : Process) : ℕ × (Fin threadNum → ℕ × ℕ × ℕ × ℕ × ℕ) :=
  (s.mainLeft threadNum, fun k => s.workerLeft k)

/-- A worker that has not ended can take a step, even if nothing comes in. -/
theorem Ok.worker_step (h : s.Ok wakeupFd threadNum) {k : Nat} (hk : k < s.server.started)
    (hend : s.ended k = false) :
    ∃ a t, a.Own ∧ Silent s a t ∧ ProcessSteps wakeupFd s a t := by
  cases hin : (s.thread k).inLoop with
  | false => exact ⟨.finish k, _, trivial, trivial, .finish k hk hin hend⟩
  | true =>
    by_cases hphase : (s.thread k).loop.phase = .polling
    · cases hwait : s.waiting k with
      | false =>
        cases hcond : s.loopCondition k with
        | false => exact ⟨.leave k, _, trivial, trivial, .leave k ⟨hk, hin, hphase, hwait⟩ hcond⟩
        | true => exact ⟨.check k, _, trivial, trivial, .check k ⟨hk, hin, hphase, hwait⟩ hcond⟩
      | true =>
        obtain ⟨-, -, -, hcount⟩ := h.workers.waiting k hwait
        have hs : Steps (wakeupFd k) (s.thread k).loop (.wait []) _ :=
          .wait [] hphase hcount List.nodup_nil fun r hr => absurd hr List.not_mem_nil
        exact ⟨.worker k (.wait []), _, trivial, rfl, .worker k (fun _ => hwait)
          (.worker k hk hin (by simp) hs)⟩
    · have hspent : ¬ (s.thread k).loop.Spent := fun hsp => hphase hsp.1
      obtain ⟨a, l, hown, hs⟩ := EventLoop.exists_own_step (wakeupFd k) hspent
      have hnowait : a.isWait = false := by
        cases hs with
        | wait returned hp => exact absurd hp hphase
        | _ => rfl
      have hstep : ProcessSteps wakeupFd s (.worker k a) _ :=
        .worker k (by simp [hnowait]) (.worker k hk hin (by rintro fd rfl; exact hown) hs)
      refine ⟨.worker k a, _, ?_, ?_, hstep⟩
      · cases a with
        | tick ms => exact absurd hown id
        | _ => trivial
      · cases a with
        | wait returned => simp [LoopStep.isWait] at hnowait
        | _ => trivial

/-- Until `main` returns some thread can take a step. -/
theorem Ending.next (h : s.Ending wakeupFd threadNum) :
    ∃ t, (processes wakeupFd threadNum).OwnStep ProcessStep.Own s t := by
  rcases h.main with ⟨i, hmain⟩ | hmain
  · by_cases hi : i < s.server.started
    · cases hend : s.ended i with
      | false =>
        obtain ⟨a, t, hown, -, hs⟩ := h.ok.worker_step hi hend
        exact ⟨t, a, hown, hs⟩
      | true => exact ⟨_, .join, trivial, .join hmain hi hend⟩
    · exact ⟨_, .joinAll, trivial, .joinAll hmain (Nat.le_of_not_lt hi)⟩
  · exact ⟨_, .delete, trivial, .delete hmain⟩

/-- Only one worker is affected, and it is nearer to its end. -/
theorem left_of_worker {k : Nat} (hk : k < threadNum) (hmain : t.main = s.main)
    (hself : WorkerLex (t.workerLeft k) (s.workerLeft k))
    (hothers : ∀ j, j ≠ k → t.workerLeft j = s.workerLeft j) :
    Prod.Lex (· < ·) (OneOf WorkerLex) (t.left threadNum) (s.left threadNum) := by
  have hm : t.mainLeft threadNum = s.mainLeft threadNum := by rw [mainLeft, mainLeft, hmain]
  rw [left, left, hm]
  exact .right _ (oneOf_fin hk hself hothers)

theorem work_workerLeft_ne {k j : Nat} (a : LoopStep) (l : EventLoop) (hj : j ≠ k) :
    (s.work k a l).workerLeft j = s.workerLeft j := by
  have hw : (s.work k a l).waiting j = s.waiting j := Function.update_of_ne hj ..
  rw [workerLeft, workerLeft, work_thread_ne a l hj, hw]
  rfl

/-- A wait that returns is not waited for any more, and any other step takes the turn on. -/
theorem work_nearer {k : Nat} {a : LoopStep} {l : EventLoop}
    (hs : Steps (wakeupFd k) (s.thread k).loop a l) (hown : a.Own)
    (hwait : a.isWait = true → s.waiting k = true) :
    WorkerLex ((s.work k a l).workerLeft k) (s.workerLeft k) := by
  have hw : (s.work k a l).waiting k = (s.waiting k && !a.isWait) := Function.update_self ..
  have he : (s.work k a l).ended k = s.ended k := rfl
  rw [workerLeft, workerLeft, work_thread_self, hw, he]
  refine .right _ ?_
  cases ha : a.isWait with
  | true =>
    rw [hwait ha]
    exact .left _ _ Nat.one_pos
  | false =>
    rw [Bool.not_false, Bool.and_true]
    refine .right _ (EventLoop.turn_shrinks hs hown fun hp => ?_)
    cases hs with
    | wait returned => simp [LoopStep.isWait] at ha
    | accept fd => exact hown
    | tick ms => exact hown
    | _ => simp_all

/-- **On the way to the end no step goes back.** -/
theorem Ending.step (h : s.Ending wakeupFd threadNum) (hown : a.Own)
    (hs : ProcessSteps wakeupFd s a t) :
    t.main = .returned ∨ (t.Ending wakeupFd threadNum ∧
      Prod.Lex (· < ·) (OneOf WorkerLex) (t.left threadNum) (s.left threadNum)) := by
  have hok := h.ok.step hs
  have hstarted := h.started
  have hne : s.main ≠ .serving ∧ ∀ i, s.main ≠ .quitting i := by
    rcases h.main with ⟨i, hm⟩ | hm <;> simp [hm]
  cases hs with
  | serve hmain => exact absurd hmain hne.1
  | startReturns hmain => exact absurd hmain hne.1
  | quit hmain => exact absurd hmain (hne.2 _)
  | quitAll hmain => exact absurd hmain (hne.2 _)
  | @join i hmain hi =>
    refine Or.inr ⟨⟨hok, Or.inl ⟨i + 1, rfl⟩⟩, .left _ _ ?_⟩
    rw [hstarted] at hi
    simp only [mainLeft, hmain]
    omega
  | joinAll hmain =>
    refine Or.inr ⟨⟨hok, Or.inr rfl⟩, .left _ _ ?_⟩
    simp only [mainLeft, hmain]
    omega
  | delete hmain => exact Or.inl rfl
  | check k hk hcond =>
    rw [loopCondition, h.flag hk.started, Bool.false_and] at hcond
    exact absurd hcond Bool.false_ne_true
  | @worker k a _ hwait hs =>
    cases hs with
    | @worker _ _ l hk hin haccept hs =>
      refine Or.inr ⟨⟨hok, h.main⟩, left_of_worker (hstarted ▸ hk) rfl (work_nearer hs ?_ hwait)
        fun j hj => work_workerLeft_ne a l hj⟩
      cases a with
      | accept fd => exact absurd rfl (haccept fd)
      | tick ms => exact hown
      | _ => trivial
  | leave k hk hcond =>
    refine Or.inr ⟨⟨hok, h.main⟩, left_of_worker (hstarted ▸ hk.started) rfl (.left _ _ ?_)
      fun j hj => ?_⟩
    · rw [leave_thread_self, hk.inLoop]
      exact Nat.add_lt_add_right Nat.one_pos _
    · rw [workerLeft, workerLeft, leave_thread_ne hj]
      rfl
  | finish k hk hout hend =>
    refine Or.inr ⟨⟨hok, h.main⟩, left_of_worker (hstarted ▸ hk) rfl (.left _ _ ?_) fun j hj => ?_⟩
    · have he : (s.finish k).ended k = true := Function.update_self ..
      rw [he, hend]
      exact Nat.lt_succ_self _
    · have he : (s.finish k).ended j = s.ended j := Function.update_of_ne hj ..
      rw [workerLeft, workerLeft, he]
      rfl

/-- The clock keeps nobody from ending. -/
theorem Ending.tick (h : s.Ending wakeupFd threadNum) (hother : ¬ a.Own)
    (hs : ProcessSteps wakeupFd s a t) :
    t.Ending wakeupFd threadNum ∧ t.left threadNum = s.left threadNum := by
  have hok := h.ok.step hs
  cases hs with
  | @worker k a _ hwait hs =>
    cases hs with
    | @worker _ _ l hk hin haccept hs =>
      have ha : a.isWait = false ∧ ¬ a.Own := by
        cases a with
        | tick ms => exact ⟨rfl, id⟩
        | _ => exact absurd trivial hother
      obtain ⟨hphase, hwork⟩ := EventLoop.turn_stays hs ha.2
      refine ⟨⟨hok, h.main⟩, Prod.ext rfl (funext fun j => ?_)⟩
      show (s.work k a l).workerLeft j = s.workerLeft j
      by_cases hjk : (j : ℕ) = k
      · have hw : (s.work k a l).waiting k = (s.waiting k && !a.isWait) := Function.update_self ..
        have he : (s.work k a l).ended k = s.ended k := rfl
        rw [hjk, workerLeft, workerLeft, work_thread_self, hw, he, ha.1, Bool.not_false,
          Bool.and_true, hphase, hwork]
        rfl
      · exact work_workerLeft_ne a l hjk
  | _ => exact absurd trivial hother

/--
**Nothing keeps the process from ending.** When `Quit` has been called on every loop, whichever
threads take their steps and whatever the kernel reports, only finitely many steps are left, some
thread can always take one until `main` returns, and then `main` has returned.
-/
theorem shutdown_completes (h : (processes wakeupFd threadNum).Reachable s) {i : Nat}
    (hmain : s.main = .joining i) :
    (processes wakeupFd threadNum).Inevitable ProcessStep.Own (fun t => t.main = .returned) s := by
  have hwf : WellFounded (Prod.Lex (· < ·) (OneOf WorkerLex) :
      ℕ × (Fin threadNum → ℕ × ℕ × ℕ × ℕ × ℕ) → _ → Prop) :=
    Nat.lt_wfRel.wf.prod_lex (oneOf_wf workerLex_wf threadNum)
  exact inevitable (P := Ending wakeupFd threadNum) (μ := left threadNum) hwf
    (fun s a t hP hother hs => hP.tick hother hs) (fun s a t hP hown hs => hP.step hown hs)
    (fun s hP => hP.next) ⟨reachable_ok h, Or.inl ⟨i, hmain⟩⟩

/-- The worker that waits ends, and the process with it. -/
theorem shutdown_completes_joining : (processes (fun _ => 3) 1).Inevitable ProcessStep.Own
    (fun t => t.main = .returned) joining :=
  shutdown_completes joining_reachable rfl

end Process

end FlashWeb
