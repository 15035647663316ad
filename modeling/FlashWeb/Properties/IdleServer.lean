import FlashWeb.Properties.Shutdown

/-!
# A server to which nothing happens

A loop never forgets a wait in vain: after five of them, in all, it returns. So a server to which
nothing comes in any more does not wait for `Quit` from outside. Its main loop and its workers come
to the end of their five waits, `main` destroys the pool and joins the threads, and the process
ends, wherever it stood when the last thing came in.
-/

namespace FlashWeb

open Lib System

namespace Process

variable {wakeupFd : Nat → Fd} {threadNum : Nat} {s t : Process} {a : ProcessStep}

/-! ## What is left -/

/-- The main loop, between its waits or in `HandleNewConn`. -/
def ServesClients (s : Process) : Prop :=
  s.server.main = .polling ∨ s.server.main = .accepting

/-- The process after all threads have been started, before `main` returns. -/
structure Up (wakeupFd : Nat → Fd) (threadNum : Nat) (s : Process) : Prop where
  ok : s.Ok wakeupFd threadNum
  main : s.main ≠ .returned
  serves : s.main = .serving → s.ServesClients

/-- `main` has returned, and every thread has ended. -/
def Over (threadNum : Nat) (s : Process) : Prop :=
  s.main = .returned ∧ ∀ k < threadNum, s.ended k = true

theorem Ok.over (h : s.Ok wakeupFd threadNum) (hmain : s.main = .returned) :
    s.Over threadNum := by
  refine ⟨hmain, fun k hk => (h.at hmain).2 k ?_⟩
  rwa [(h.pool (by simp [hmain])).1]

theorem Up.started (h : s.Up wakeupFd threadNum) : s.server.started = threadNum := by
  by_cases hm : s.main = .serving
  · have hr := h.ok.serving hm
    have hok := Server.ok_of_reachable hr
    rw [← threadNum_of_reachable hr]
    rcases h.serves hm with hs | hs
    · exact (hok.at hs).1
    · exact (hok.at hs).1
  · exact (h.ok.pool hm).1

/-- What the main loop still has to do: two steps for each wait. -/
def serverRank (s : Server) : ℕ :=
  2 * (5 - s.timeoutCount) + match s.main with
    | .accepting => 1
    | _ => 0

/-- What `main` still has to do. -/
def mainRank (threadNum : Nat) (s : Process) : ℕ :=
  match s.main with
  | .serving => 2 * threadNum + 5 + serverRank s.server
  | .quitting i => 2 * threadNum + 4 - i
  | .joining i => threadNum + 2 - i
  | .deleting => 1
  | .returned => 0

/-- What a worker still has to do: end, wait, and go round. -/
def workerRank (s : Process) (k : Nat) : ℕ × ℕ × ℕ × ℕ × ℕ :=
  ((s.thread k).inLoop.toNat + (!s.ended k).toNat, 5 - (s.thread k).loop.timeoutCount,
    (s.thread k).loop.phase.stage.left + (!s.waiting k).toNat, (s.thread k).loop.work)

/-- The same for the whole process. -/
def rank (threadNum : Nat) (s : Process) : ℕ × (Fin threadNum → ℕ × ℕ × ℕ × ℕ × ℕ) :=
  (s.mainRank threadNum, fun k => s.workerRank k)

abbrev RankLex {threadNum : Nat} : ℕ × (Fin threadNum → ℕ × ℕ × ℕ × ℕ × ℕ) →
    ℕ × (Fin threadNum → ℕ × ℕ × ℕ × ℕ × ℕ) → Prop :=
  Prod.Lex (· < ·) (OneOf WorkerLex)

theorem rank_of_main (h : t.mainRank threadNum < s.mainRank threadNum) :
    RankLex (t.rank threadNum) (s.rank threadNum) := .left _ _ h

/-- A step of one worker. -/
theorem rank_of_worker {k : Nat} (hk : k < threadNum)
    (hmain : t.mainRank threadNum = s.mainRank threadNum)
    (hself : WorkerLex (t.workerRank k) (s.workerRank k))
    (hothers : ∀ j, j ≠ k → t.workerRank j = s.workerRank j) :
    RankLex (t.rank threadNum) (s.rank threadNum) := by
  rw [rank, rank, hmain]
  exact .right _ (oneOf_fin hk hself hothers)

/-! ## The workers -/

theorem work_workerRank_ne {k j : Nat} (a : LoopStep) (l : EventLoop) (hj : j ≠ k) :
    (s.work k a l).workerRank j = s.workerRank j := by
  have hw : (s.work k a l).waiting j = s.waiting j := Function.update_of_ne hj ..
  rw [workerRank, workerRank, work_thread_ne a l hj, hw]
  rfl

/-- In `EpollWait` a loop takes no other step. -/
theorem wait_of_polling {w : Fd} {l l' : EventLoop} {b : LoopStep} (hs : Steps w l b l')
    (hown : b.Own) (hp : l.phase = .polling) : b.isWait = true := by
  cases hs with
  | wait => rfl
  | accept => exact hown.elim
  | tick => exact hown.elim
  | _ => simp_all

theorem turnLex_add {x y n m : ℕ} {u v : ℕ × ℕ} (h : EventLoop.TurnLex (x, u) (y, v))
    (hm : m ≤ n) : EventLoop.TurnLex (x + m, u) (y + n, v) := by
  cases h with
  | left _ _ hlt => exact .left _ _ (Nat.add_lt_add_of_lt_of_le hlt hm)
  | right _ hlex =>
    rcases Nat.lt_or_eq_of_le hm with hlt | rfl
    · exact .left _ _ (Nat.add_lt_add_left hlt x)
    · exact .right _ hlex

/-- **A wait that finds nothing is counted, and any other step takes the turn on.** -/
theorem work_lower {k : Nat} {b : LoopStep} {l : EventLoop}
    (hs : Steps (wakeupFd k) (s.thread k).loop b l) (hown : b.Own)
    (hsilent : ∀ returned, b = .wait returned → returned = []) :
    WorkerLex ((s.work k b l).workerRank k) (s.workerRank k) := by
  have hw : (s.work k b l).waiting k = (s.waiting k && !b.isWait) := Function.update_self ..
  have he : (s.work k b l).ended k = s.ended k := rfl
  rw [workerRank, workerRank, work_thread_self, hw, he]
  refine .right _ ?_
  by_cases hwait : ∃ returned, b = .wait returned
  · obtain ⟨returned, rfl⟩ := hwait
    obtain rfl := hsilent returned rfl
    cases hs with
    | wait _ _ hcount =>
      refine .left _ _ ?_
      show 5 - ((s.thread k).loop.timeoutCount + 1) < 5 - (s.thread k).loop.timeoutCount
      omega
  · have hb : b.isWait = false := by
      cases b with
      | wait returned => exact absurd ⟨returned, rfl⟩ hwait
      | _ => rfl
    have hphase : (s.thread k).loop.phase ≠ .polling := fun hp => by
      rw [wait_of_polling hs hown hp] at hb
      exact Bool.noConfusion hb
    rw [hb, Bool.not_false, Bool.and_true,
      EventLoop.timeoutCount_eq hs fun returned hr => hwait ⟨returned, hr⟩]
    exact .right _ (turnLex_add (EventLoop.turn_shrinks hs hown hphase) (Nat.le_refl _))

/-! ## Each step -/

/-- **While nothing comes in, every step leaves less to do.** -/
theorem Up.step (h : s.Up wakeupFd threadNum) (hown : a.Own)
    (hs : ProcessSteps wakeupFd s a t) (hsilent : Silent s a t) :
    t.Over threadNum ∨ (t.Up wakeupFd threadNum ∧
      RankLex (t.rank threadNum) (s.rank threadNum)) := by
  have hok := h.ok.step hs
  have hstarted := h.started
  cases hs with
  | @serve b _ hmain hb hs =>
    have hserves := h.serves hmain
    -- the main loop waits, or there is no connection left to accept
    cases hs with
    | wait ready hpolling hcount =>
      obtain rfl : ready = false := hsilent
      refine Or.inr ⟨⟨hok, h.main, fun _ => Or.inl rfl⟩, rank_of_main ?_⟩
      simp only [mainRank, serverRank, hmain, hpolling, Bool.false_eq_true, if_false]
      omega
    | accepted haccepting =>
      refine Or.inr ⟨⟨hok, h.main, fun _ => Or.inl rfl⟩, rank_of_main ?_⟩
      simp only [mainRank, serverRank, hmain, haccepting]
      omega
    | accept => exact hsilent.elim
    | worker => exact hb.elim
    | leave => exact hb.elim
    | _ => simp_all [ServesClients]
  | startReturns hmain hpolling =>
    refine Or.inr ⟨⟨hok, by simp, by simp⟩, rank_of_main ?_⟩
    simp only [mainRank, hmain]
    omega
  | @quit i k hmain hk =>
    have hi : i < threadNum := by
      have hlt := (List.getElem?_eq_some_iff.mp hk).1
      rwa [(h.ok.pool (by simp [hmain])).2, List.length_range] at hlt
    refine Or.inr ⟨⟨hok, by simp, by simp⟩, rank_of_main ?_⟩
    simp only [mainRank, hmain]
    omega
  | @quitAll i hmain =>
    obtain ⟨-, hi⟩ : s.quits.length = i ∧ i ≤ s.server.started := h.ok.at hmain
    refine Or.inr ⟨⟨hok, by simp, by simp⟩, rank_of_main ?_⟩
    simp only [mainRank, hmain]
    omega
  | join hmain hi =>
    refine Or.inr ⟨⟨hok, by simp, by simp⟩, rank_of_main ?_⟩
    simp only [mainRank, hmain]
    omega
  | @joinAll i hmain =>
    obtain ⟨-, hi, -⟩ := h.ok.at hmain
    refine Or.inr ⟨⟨hok, by simp, by simp⟩, rank_of_main ?_⟩
    simp only [mainRank, hmain]
    omega
  | delete hmain => exact Or.inl (hok.over rfl)
  | check k hk hcond =>
    refine Or.inr ⟨⟨hok, h.main, h.serves⟩, rank_of_worker (hstarted ▸ hk.started) rfl ?_
      fun j hj => ?_⟩
    · have hw : (s.setWaiting k true).waiting k = true := Function.update_self ..
      rw [workerRank, workerRank, hw, hk.waiting]
      exact .right _ (.right _ (.left _ _ (Nat.lt_succ_self _)))
    · have hw : (s.setWaiting k true).waiting j = s.waiting j := Function.update_of_ne hj ..
      rw [workerRank, workerRank, hw]
      rfl
  | @worker k b _ hwait hs =>
    cases hs with
    | @worker _ _ l hk hin haccept hs =>
      refine Or.inr ⟨⟨hok, h.main, h.serves⟩, rank_of_worker (hstarted ▸ hk) rfl
        (work_lower hs ?_ ?_) fun j hj => work_workerRank_ne b l hj⟩
      · cases b with
        | accept fd => exact absurd rfl (haccept fd)
        | tick ms => exact hown
        | _ => trivial
      · rintro returned rfl
        exact hsilent
  | leave k hk hcond =>
    refine Or.inr ⟨⟨hok, h.main, h.serves⟩, rank_of_worker (hstarted ▸ hk.started) rfl
      (.left _ _ ?_) fun j hj => ?_⟩
    · rw [leave_thread_self, hk.inLoop]
      exact Nat.add_lt_add_right Nat.one_pos _
    · rw [workerRank, workerRank, leave_thread_ne hj]
      rfl
  | finish k hk hout hend =>
    refine Or.inr ⟨⟨hok, h.main, h.serves⟩, rank_of_worker (hstarted ▸ hk) rfl (.left _ _ ?_)
      fun j hj => ?_⟩
    · have he : (s.finish k).ended k = true := Function.update_self ..
      rw [he, hend]
      exact Nat.lt_succ_self _
    · have he : (s.finish k).ended j = s.ended j := Function.update_of_ne hj ..
      rw [workerRank, workerRank, he]
      rfl

/-- Time passes. -/
theorem Up.tick (h : s.Up wakeupFd threadNum) (hother : ¬ a.Own)
    (hs : ProcessSteps wakeupFd s a t) :
    t.Up wakeupFd threadNum ∧ t.rank threadNum = s.rank threadNum := by
  have hok := h.ok.step hs
  cases hs with
  | @worker k b _ hwait hs =>
    cases hs with
    | @worker _ _ l hk hin haccept hs =>
      have hb : b.isWait = false ∧ ¬ b.Own := by
        cases b with
        | tick ms => exact ⟨rfl, id⟩
        | _ => exact absurd trivial hother
      obtain ⟨hphase, hwork⟩ := EventLoop.turn_stays hs hb.2
      have hcount := EventLoop.timeoutCount_eq hs fun returned hr => by
        rw [hr] at hb
        exact absurd trivial hb.2
      refine ⟨⟨hok, h.main, h.serves⟩, Prod.ext rfl (funext fun j => ?_)⟩
      show (s.work k b l).workerRank j = s.workerRank j
      by_cases hjk : (j : ℕ) = k
      · have hw : (s.work k b l).waiting k = (s.waiting k && !b.isWait) := Function.update_self ..
        have he : (s.work k b l).ended k = s.ended k := rfl
        rw [hjk, workerRank, workerRank, work_thread_self, hw, he, hb.1, Bool.not_false,
          Bool.and_true, hphase, hwork, hcount]
        rfl
      · exact work_workerRank_ne b l hjk
  | _ => exact absurd trivial hother

/-- **Until `main` returns some thread can take a step.** -/
theorem Up.next (h : s.Up wakeupFd threadNum) :
    ∃ a t, a.Own ∧ Silent s a t ∧ ProcessSteps wakeupFd s a t := by
  cases hmain : s.main with
  | serving =>
    rcases h.serves hmain with hpolling | haccepting
    · by_cases hcount : s.server.timeoutCount < 5
      · exact ⟨.serve (.wait false), _, trivial, rfl,
          .serve hmain trivial (.wait false hpolling hcount)⟩
      · exact ⟨.startReturns, _, trivial, trivial, .startReturns hmain hpolling hcount⟩
    · exact ⟨.serve .accepted, _, trivial, trivial, .serve hmain trivial (.accepted haccepting)⟩
  | quitting i =>
    cases hk : s.server.pool.eventloops[i]? with
    | none =>
      exact ⟨.quitAll, _, trivial, trivial, .quitAll hmain (List.getElem?_eq_none_iff.mp hk)⟩
    | some k => exact ⟨.quit, _, trivial, trivial, .quit hmain hk⟩
  | joining i =>
    by_cases hi : i < s.server.started
    · cases hend : s.ended i with
      | false => exact h.ok.worker_step hi hend
      | true => exact ⟨.join, _, trivial, trivial, .join hmain hi hend⟩
    · exact ⟨.joinAll, _, trivial, trivial, .joinAll hmain (Nat.le_of_not_lt hi)⟩
  | deleting => exact ⟨.delete, _, trivial, trivial, .delete hmain⟩
  | returned => exact absurd hmain h.main

/-! ## The end -/

/--
**A server to which nothing happens stops by itself.** From every state that a process can be in
once all threads have been started and no connection is about to be handed over, however many
connections are open and whatever is still to be done for them: if no wait finds anything any more,
only finitely many steps are left, whichever threads take them, some thread can always take one
until `main` returns, and then every thread has ended.
-/
theorem stops_by_itself (h : (processes wakeupFd threadNum).Reachable s)
    (hserves : s.main = .serving → s.ServesClients) :
    ((processes wakeupFd threadNum).only Silent).Inevitable ProcessStep.Own (Over threadNum)
      s := by
  by_cases hmain : s.main = .returned
  · exact .here ((reachable_ok h).over hmain)
  · have hwf : WellFounded (@RankLex threadNum) :=
      Nat.lt_wfRel.wf.prod_lex (oneOf_wf workerLex_wf threadNum)
    have hother : ∀ s a t, Up wakeupFd threadNum s → ¬ a.Own →
        ((processes wakeupFd threadNum).only Silent).step s a t →
        Up wakeupFd threadNum t ∧ t.rank threadNum = s.rank threadNum :=
      fun s a t hP hother hs => hP.tick hother hs.1
    have hown : ∀ s a t, Up wakeupFd threadNum s → a.Own →
        ((processes wakeupFd threadNum).only Silent).step s a t → t.Over threadNum ∨
          (Up wakeupFd threadNum t ∧ RankLex (t.rank threadNum) (s.rank threadNum)) :=
      fun s a t hP hown hs => hP.step hown hs.1 hs.2
    refine inevitable hwf hother hown (fun s hP => ?_) ⟨reachable_ok h, hmain, hserves⟩
    obtain ⟨a, t, hown, hsilent, hs⟩ := hP.next
    exact ⟨t, a, hown, hs, hsilent⟩

/-- A process whose worker has opened a connection. -/
theorem exists_open : ∃ s, (processes (fun _ => 3) 1).Reachable s ∧ s.ServesClients ∧
    (s.thread 0).loop.Registered 0 := by
  have hworker : ∀ {s : Process} {l : EventLoop} {a : LoopStep},
      (processes (fun _ => 3) 1).Reachable s → a.isWait = false → (∀ fd, a ≠ .accept fd) →
      0 < s.server.started → (s.thread 0).inLoop = true → Steps 3 (s.thread 0).loop a l →
      (processes (fun _ => 3) 1).Reachable
        { s.setWaiting 0 (s.waiting 0 && !a.isWait) with server := s.server.setLoop 0 l } :=
    fun hs hwait ha hstarted hin hl => hs.step (ProcessSteps.worker 0
      (fun h => absurd (h.symm.trans hwait) (by simp)) (ServerSteps.worker 0 hstarted hin ha hl))
  have h1 := (idling_reachable 0 (Nat.zero_le 5)).step
    (ProcessSteps.serve (a := .wait true) rfl trivial (ServerSteps.wait true rfl (Nat.succ_pos 4)))
  have h2 := h1.step (ProcessSteps.serve (a := .accept 5) rfl trivial
    (@ServerSteps.accept (fun _ => 3) _ 0 Server.poolOfOne 5 rfl (Nat.succ_pos 4) rfl))
  have h3 := h2.step (ProcessSteps.serve (a := .runFunction) rfl trivial
    (@ServerSteps.runFunction (fun _ => 3) _ 0 5 rfl
      (Steps.accept 5 (by decide) fun id hid => absurd hid (@Server.free_construct 3 0 id))))
  have h4 := h3.step (ProcessSteps.worker 0 (fun _ => rfl) (ServerSteps.worker 0 Nat.one_pos rfl
    (by simp) (Steps.wait [] rfl (Nat.succ_pos 4) List.nodup_nil
      fun r hr => absurd hr List.not_mem_nil)))
  have h5 := hworker h4 rfl (by simp) Nat.one_pos rfl (Steps.swap rfl)
  have h6 := hworker h5 rfl (by simp) Nat.one_pos rfl (Steps.callback rfl)
  exact ⟨_, h6, Or.inr rfl, rfl⟩

/-- It stops too, with the connection open and the turn of the worker not at its end. -/
theorem stops_by_itself_idling : ∃ s, (processes (fun _ => 3) 1).Reachable s ∧
    (s.thread 0).loop.Registered 0 ∧
    ((processes (fun _ => 3) 1).only Silent).Inevitable ProcessStep.Own (Over 1) s := by
  obtain ⟨s, h, hserves, hopen⟩ := exists_open
  exact ⟨s, h, hopen, stops_by_itself h fun _ => hserves⟩

end Process

end FlashWeb
