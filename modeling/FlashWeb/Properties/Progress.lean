import FlashWeb.Lib.Drain
import FlashWeb.Lib.Progress
import FlashWeb.Properties.Lifecycle
import FlashWeb.Properties.Workers
import Mathlib.Order.RelClasses

/-!
# A loop comes round

`Loop` goes through four parts in turn: it waits, it dispatches events, it runs callbacks and it
drops timers. Every step of the loop's own takes it to the next part or leaves it less to do in the
part it is in, and what comes in from outside in the meantime is left for the next turn. So a loop
that keeps running comes back to `EpollWait`, however many connections and events come in, and every
connection that was accepted for it is opened before long.
-/

namespace FlashWeb

open Lib System

/-! ## The parts of a turn -/

/-- The parts of a turn of `Loop`. -/
inductive LoopStage where
  | waiting
  | dispatching
  | running
  | expiring
  deriving DecidableEq

/-- The part that comes next. -/
def LoopStage.next : LoopStage → LoopStage
  | .waiting => .dispatching
  | .dispatching => .running
  | .running => .expiring
  | .expiring => .waiting

/-- How many parts there are until the loop waits again. -/
def LoopStage.left : LoopStage → ℕ
  | .waiting => 0
  | .dispatching => 3
  | .running => 2
  | .expiring => 1

def LoopPhase.stage : LoopPhase → LoopStage
  | .polling => .waiting
  | .dispatching _ => .dispatching
  | .handling _ => .dispatching
  | .running _ => .running
  | .expiring => .expiring

/-- The steps that the thread of the loop takes. -/
def LoopStep.Own : LoopStep → Prop
  | .accept _ => False
  | .tick _ => False
  | _ => True

/-- The same without the beginning of an event on a connection. -/
def LoopStep.Quiet (a : LoopStep) : Prop := a.Own ∧ ∀ d, a ≠ .begin d

namespace EventLoop

variable {wakeupFd : Fd} {s t : EventLoop} {id : HttpId} {a : LoopStep}

/-- What is left to do in the part that the loop is in. -/
def work (s : EventLoop) : ℕ × ℕ :=
  match s.phase with
  | .polling => (0, 0)
  | .dispatching active => (2 * active.length, 0)
  | .handling x => (2 * x.active.length + 1, x.todo.length)
  | .running batch => (batch.length, 0)
  | .expiring => (s.timerManager.timerNodeQueue.length, 0)

/-- First the one, then the other. -/
abbrev Lex : ℕ × ℕ → ℕ × ℕ → Prop := Prod.Lex (· < ·) (· < ·)

/-- What a step does to the turn of the loop. -/
inductive Advances (s : EventLoop) (a : LoopStep) (t : EventLoop) : Prop where
  | outside : ¬ a.Own → t.phase = s.phase → t.work = s.work → Advances s a t
  | next : a.Own → t.phase.stage = s.phase.stage.next → Advances s a t
  | less : a.Own → t.phase.stage = s.phase.stage → Lex t.work s.work → Advances s a t

/-- **Every step of the loop's own brings it on.** -/
theorem step_advances (hs : Steps wakeupFd s a t) : Advances s a t := by
  cases hs with
  | accept fd =>
    refine .outside (fun h => h) rfl ?_
    unfold work
    rfl
  | tick ms =>
    refine .outside (fun h => h) rfl ?_
    unfold work
    rfl
  | wait returned hp => exact .next trivial (by rw [hp]; rfl)
  | @wakeup events active hp =>
    refine .less trivial (by rw [hp]; rfl) ?_
    simp only [work, hp, enter]
    exact .left _ _ (by simp)
  | @begin id active d hp =>
    refine .less trivial (by rw [hp]; rfl) ?_
    simp only [work, hp, EventLoop.begin]
    exact .left _ _ (by simp only [List.length_cons]; omega)
  | @effect x e todo hp htodo =>
    refine .less trivial (by rw [hp]; rfl) ?_
    simp only [work, hp, enter, htodo]
    exact .right _ (by simp)
  | @handled x hp htodo =>
    refine .less trivial (by rw [hp]; rfl) ?_
    simp only [work, hp, enter]
    exact .left _ _ (by omega)
  | swap hp => exact .next trivial (by rw [hp]; rfl)
  | callback hp =>
    refine .less trivial (by rw [hp]; rfl) ?_
    simp only [work, hp, enter]
    exact .left _ _ (by simp)
  | ran hp => exact .next trivial (by rw [hp]; rfl)
  | expire n hp htop =>
    have hphase := (s.expire_phase n).trans hp
    refine .less trivial (by rw [hp, hphase]) ?_
    have hqueue : (s.expire n).timerManager = s.timerManager.pop n := by
      unfold EventLoop.expire
      cases n.data <;> rfl
    simp only [work, hp, hphase, hqueue]
    refine .left _ _ (List.length_filter_lt_length_iff_exists.mpr ⟨n, htop.1, ?_⟩)
    simp
  | rest hp => exact .next trivial (by rw [hp]; rfl)

/-! ## Coming back to `EpollWait` -/

theorem stage_eq_waiting {p : LoopPhase} : p.stage = .waiting ↔ p = .polling := by
  cases p <;> simp [LoopPhase.stage]

/-- The parts left first, then the work left in the part. -/
abbrev TurnLex : ℕ × ℕ × ℕ → ℕ × ℕ × ℕ → Prop := Prod.Lex (· < ·) Lex

theorem lex_wf : WellFounded Lex := Nat.lt_wfRel.wf.prod_lex Nat.lt_wfRel.wf

theorem turnLex_wf : WellFounded TurnLex := Nat.lt_wfRel.wf.prod_lex lex_wf

/-- On the way to `EpollWait` each step of the loop's own leaves less of the turn. -/
theorem turn_shrinks (hs : Steps wakeupFd s a t) (hown : a.Own) (hP : s.phase ≠ .polling) :
    TurnLex (t.phase.stage.left, t.work) (s.phase.stage.left, s.work) := by
  cases step_advances hs with
  | outside hother => exact absurd hown hother
  | next _ hstage =>
    refine .left _ _ ?_
    rw [hstage]
    cases hst : s.phase.stage with
    | waiting => exact absurd (stage_eq_waiting.mp hst) hP
    | dispatching => exact Nat.lt_succ_self 2
    | running => exact Nat.lt_succ_self 1
    | expiring => exact Nat.lt_succ_self 0
  | less _ hstage hlex =>
    rw [hstage]
    exact .right _ hlex

/-- What comes from outside leaves the turn as it is. -/
theorem turn_stays (hs : Steps wakeupFd s a t) (hother : ¬ a.Own) :
    t.phase = s.phase ∧ t.work = s.work := by
  cases step_advances hs with
  | outside _ hphase hwork => exact ⟨hphase, hwork⟩
  | next hown => exact absurd hown hother
  | less hown => exact absurd hown hother

theorem waits_again (run : (loops wakeupFd).Forever) (hfair : run.Fair LoopStep.Own) (n : ℕ) :
    ∃ m, n ≤ m ∧ (run.state m).phase = .polling := by
  by_cases hn : (run.state n).phase = .polling
  · exact ⟨n, Nat.le_refl n, hn⟩
  · refine run.leadsTo (P := fun s => s.phase ≠ .polling) (Q := fun s => s.phase = .polling)
      (μ := fun s => (s.phase.stage.left, s.work)) turnLex_wf hfair (fun s a t _ hP hs => ?_) hn
    by_cases hown : a.Own
    · by_cases ht : t.phase = .polling
      · exact .arrives ht
      · exact .nearer ht (turn_shrinks hs hown hP)
    · obtain ⟨hphase, hwork⟩ := turn_stays hs hown
      exact .waits (hphase ▸ hP) hown (by rw [hphase, hwork])

/-- In `EpollWait` the only step of the loop's own is that it returns. -/
theorem leaves_polling (hp : s.phase = .polling) (hs : Steps wakeupFd s a t) (hown : a.Own) :
    t.phase ≠ .polling := by
  cases hs with
  | accept => exact hown.elim
  | tick => exact hown.elim
  | wait => simp [EventLoop.wait]
  | _ => simp_all

/-- The loop comes back to `EpollWait` from `HandleExpire` only. -/
theorem rest_of_polling (hs : Steps wakeupFd s a t) (hp : s.phase ≠ .polling)
    (ht : t.phase = .polling) : a = .rest := by
  cases hs with
  | rest => rfl
  | accept => exact absurd ht hp
  | tick => exact absurd ht hp
  | expire n _ => exact absurd ((s.expire_phase n).symm.trans ht) hp
  | _ => exact absurd ht (by simp [EventLoop.wait, EventLoop.begin, enter])

/-- **`HandleExpire` ends again and again.** -/
theorem rests_again (run : (loops wakeupFd).Forever) (hfair : run.Fair LoopStep.Own) (n : ℕ) :
    ∃ m, n ≤ m ∧ run.label m = .rest := by
  by_contra hno
  have hnever : ∀ m, n ≤ m → run.label m ≠ .rest := fun m hm h => hno ⟨m, hm, h⟩
  -- outside `EpollWait` the loop would stay outside
  have hout : ∀ k, n ≤ k → (run.state k).phase ≠ .polling → ∀ m, k ≤ m →
      (run.state m).phase ≠ .polling := by
    intro k hk hp m hm
    induction m, hm using Nat.le_induction with
    | base => exact hp
    | succ m hm ih =>
      exact fun ht => hnever m (hk.trans hm) (rest_of_polling (run.step m) ih ht)
  obtain ⟨m, hm, hown⟩ := hfair n
  have hleft : ∃ k, n ≤ k ∧ (run.state k).phase ≠ .polling := by
    by_cases hp : (run.state m).phase = .polling
    · exact ⟨m + 1, Nat.le_succ_of_le hm, leaves_polling hp (run.step m) hown⟩
    · exact ⟨m, hm, hp⟩
  obtain ⟨k, hk, hp⟩ := hleft
  obtain ⟨j, hj, hpj⟩ := waits_again run hfair k
  exact hout k hk hp j hj hpj

theorem exists_own_step (wakeupFd : Fd) (hspent : ¬ s.Spent) :
    ∃ a t, a.Own ∧ Steps wakeupFd s a t := by
  cases hp : s.phase with
  | polling =>
    have hcount : s.timeoutCount < 5 := Nat.lt_of_not_le fun hle => hspent ⟨hp, hle⟩
    exact ⟨.wait [], _, trivial, .wait [] hp hcount List.nodup_nil fun r hr => nomatch hr⟩
  | dispatching active =>
    rcases active with _ | ⟨⟨_ | id, events⟩, active⟩
    · exact ⟨.swap, _, trivial, .swap hp⟩
    · exact ⟨.wakeup, _, trivial, .wakeup hp⟩
    · exact ⟨.begin ⟨events, [], [], .blank, 0⟩, _, trivial, .begin _ hp⟩
  | handling x =>
    cases htodo : x.todo with
    | nil => exact ⟨.handled, _, trivial, .handled hp htodo⟩
    | cons e todo => exact ⟨.effect, _, trivial, .effect hp htodo⟩
  | running batch =>
    cases batch with
    | nil => exact ⟨.ran, _, trivial, .ran hp⟩
    | cons id batch => exact ⟨.callback, _, trivial, .callback hp⟩
  | expiring =>
    by_cases hq : s.timerManager.timerNodeQueue = []
    · exact ⟨.rest, _, trivial, .rest hp (Or.inl hq)⟩
    · obtain ⟨n, htop⟩ := Lib.exists_isTop TimerNode.expireTime hq
      cases hover : n.isOver s.now with
      | false => exact ⟨.rest, _, trivial, .rest hp (Or.inr ⟨n, htop, hover⟩)⟩
      | true => exact ⟨.expire n, _, trivial, .expire n hp htop hover⟩

/--
**The loop is never stuck.** Unless five of its waits were in vain it can always take a step, and as
long as it takes steps it comes back to `EpollWait` again and again.
-/
theorem loop_comes_round (wakeupFd : Fd) :
    (∀ s : EventLoop, ¬ s.Spent → ∃ a t, a.Own ∧ Steps wakeupFd s a t) ∧
      ∀ run : (loops wakeupFd).Forever, run.Fair LoopStep.Own → ∀ n, ∃ m, n ≤ m ∧
        (run.state m).phase = .polling :=
  ⟨fun _ hspent => exists_own_step wakeupFd hspent, waits_again⟩

/-! ## Opening what was accepted -/

/-- Which of the parts up to its `Init` a connection in the queue has before it. -/
def queueOrder (id : HttpId) (s : EventLoop) : ℕ :=
  match s.phase with
  | .running batch => if id ∈ batch then 1 else 5
  | .expiring => 4
  | .polling => 3
  | _ => 2

/-- A step of the loop's own that stays in its part leaves less to do there. -/
theorem Advances.less_of_stage (h : Advances s a t) (hown : a.Own)
    (hstage : t.phase.stage = s.phase.stage) : Lex t.work s.work := by
  cases h with
  | outside hother => exact absurd hown hother
  | next _ hnext =>
    rw [hstage] at hnext
    cases hs : s.phase.stage <;> rw [hs] at hnext <;> exact nomatch hnext
  | less _ _ hlex => exact hlex

/-- The loop itself accepts no connections. -/
theorem accepted_eq (hok : s.Ok wakeupFd) (hs : Steps wakeupFd s a t) (ha : ∀ fd, a ≠ .accept fd) :
    t.accepted = s.accepted := by
  cases hs with
  | accept fd => exact absurd rfl (ha fd)
  | @effect x e todo hp htodo =>
    obtain ⟨timed, st, hf, -⟩ := (hok.phase.handling x hp).outcome
    rw [htodo, Standing.follow_cons, Option.bind_eq_some_iff] at hf
    obtain ⟨mid, he, -⟩ := hf
    exact (perform_spec hok.tables he).2.accepted
  | @callback id batch hp =>
    have hid : id ∈ s.pending := by simp [EventLoop.pending, hp]
    exact (init_spec hok.toBaseOk hid).2.1.accepted
  | expire n =>
    unfold EventLoop.expire
    cases n.data <;> rfl
  | _ => rfl

/-- The clock and the number of waits in vain are not a connection's business. -/
theorem perform_frame (s : EventLoop) (j : HttpId) (e : Effect) :
    (s.perform j e).now = s.now ∧ (s.perform j e).timeoutCount = s.timeoutCount := by
  cases e with
  | seperateTimer =>
    show (s.seperateTimer j).now = s.now ∧ (s.seperateTimer j).timeoutCount = s.timeoutCount
    unfold seperateTimer
    split
    · split <;> exact ⟨rfl, rfl⟩
    · exact ⟨rfl, rfl⟩
  | updateEpoller events timeout =>
    show (s.epollModify j events timeout).now = s.now ∧
      (s.epollModify j events timeout).timeoutCount = s.timeoutCount
    unfold epollModify addTimer
    dsimp only
    split
    · split <;> exact ⟨rfl, rfl⟩
    · exact ⟨rfl, rfl⟩
  | _ => exact ⟨rfl, rfl⟩

theorem init_frame (s : EventLoop) (j : HttpId) :
    (s.init j).now = s.now ∧ (s.init j).timeoutCount = s.timeoutCount := by
  unfold init epollAdd addTimer
  dsimp only
  split
  · split <;> exact ⟨rfl, rfl⟩
  · exact ⟨rfl, rfl⟩

/-- In the model the loop's own steps take no time. -/
theorem now_eq (hs : Steps wakeupFd s a t) (hown : a.Own) : t.now = s.now := by
  cases hs with
  | tick => exact hown.elim
  | effect => exact (perform_frame s _ _).1
  | callback => exact (init_frame s _).1
  | expire n =>
    unfold EventLoop.expire
    cases n.data <;> rfl
  | _ => rfl

/-- Only `EpollWait` counts waits in vain. -/
theorem timeoutCount_eq (hs : Steps wakeupFd s a t) (ha : ∀ returned, a ≠ .wait returned) :
    t.timeoutCount = s.timeoutCount := by
  cases hs with
  | wait returned => exact absurd rfl (ha returned)
  | effect => exact (perform_frame s _ _).2
  | callback => exact (init_frame s _).2
  | expire n =>
    unfold EventLoop.expire
    cases n.data <;> rfl
  | _ => rfl

/-- Nothing that happens lets connections disappear. -/
theorem accepted_le (hok : s.Ok wakeupFd) (hs : Steps wakeupFd s a t) :
    s.accepted ≤ t.accepted := by
  by_cases ha : ∀ fd, a ≠ .accept fd
  · exact (accepted_eq hok hs ha).ge
  · obtain ⟨fd, hfd⟩ := not_forall.mp ha
    obtain rfl := not_not.mp hfd
    cases hs with
    | accept _ => exact Nat.le_succ _

/-- What leaves the queue has been opened. -/
theorem Placed.pending_or_opened (h : s.Placed) (ht : t.Placed) (hacc : s.accepted ≤ t.accepted)
    (hid : id ∈ s.pending) : id ∈ t.pending ∨ id < t.inits := by
  rw [h.queue, List.mem_range'_1, Nat.add_sub_cancel' h.inits_le] at hid
  rw [ht.queue, List.mem_range'_1, Nat.add_sub_cancel' ht.inits_le]
  by_cases hin : id < t.inits
  · exact Or.inr hin
  · exact Or.inl ⟨Nat.le_of_not_lt hin, hid.2.trans_le hacc⟩

/-- **A connection in the queue comes nearer to its `Init` with every step of the loop's own.** -/
theorem queueOrder_step (hok : s.Ok wakeupFd) (hs : Steps wakeupFd s a t) (hown : a.Own)
    (hid : id ∈ s.pending) (hid' : id ∈ t.pending) :
    TurnLex (t.queueOrder id, t.work) (s.queueOrder id, s.work) := by
  have hadv := step_advances hs
  have hsame : t.queueOrder id = s.queueOrder id → t.phase.stage = s.phase.stage →
      TurnLex (t.queueOrder id, t.work) (s.queueOrder id, s.work) := by
    intro hq hstage
    rw [hq]
    exact .right _ (hadv.less_of_stage hown hstage)
  cases hs with
  | accept fd => exact hown.elim
  | tick ms => exact hown.elim
  | wait returned hp => exact .left _ _ (by simp [queueOrder, hp, EventLoop.wait])
  | wakeup hp => exact hsame (by simp [queueOrder, hp, enter]) (by rw [hp]; rfl)
  | begin d hp => exact hsame (by simp [queueOrder, hp, EventLoop.begin]) (by rw [hp]; rfl)
  | effect hp => exact hsame (by simp [queueOrder, hp, enter]) (by rw [hp]; rfl)
  | handled hp => exact hsame (by simp [queueOrder, hp, enter]) (by rw [hp]; rfl)
  | swap hp =>
    have hmem : id ∈ s.callbackList := by simpa [EventLoop.pending, hp] using hid
    exact .left _ _ (by simp [queueOrder, hp, hmem])
  | @callback j batch hp =>
    refine hsame ?_ (by rw [hp]; rfl)
    have hnodup := hok.pendingNodup
    have hpend : s.pending = j :: (batch ++ s.callbackList) := by simp [EventLoop.pending, hp]
    have hj : j ∈ s.pending := by simp [hpend]
    have hpend' : ((s.init j).enter (.running batch)).pending = batch ++ s.callbackList :=
      congrArg (batch ++ ·) (init_spec hok.toBaseOk hj).2.1.callbackList
    -- nothing is in the queue twice
    have hne : id ≠ j := by
      rintro rfl
      rw [hpend, List.nodup_cons] at hnodup
      exact hnodup.1 (hpend' ▸ hid')
    simp [queueOrder, hp, enter, hne]
  | ran hp => exact .left _ _ (by simp [queueOrder, hp, enter])
  | expire n hp =>
    have hphase := (s.expire_phase n).trans hp
    exact hsame (by simp [queueOrder, hp, hphase]) (by rw [hp, hphase])
  | rest hp => exact .left _ _ (by simp [queueOrder, hp, enter])

/--
**Every connection that was accepted is opened.** As long as the loop keeps taking steps, `Init`
runs for it sooner or later, whatever else there is to do.
-/
theorem opened_in_time (run : (loops wakeupFd).Forever) (hfair : run.Fair LoopStep.Own) {n : ℕ}
    {id : HttpId} (hid : id < (run.state n).accepted) :
    ∃ m, n ≤ m ∧ id < (run.state m).inits := by
  by_cases hin : id < (run.state n).inits
  · exact ⟨n, Nat.le_refl n, hin⟩
  · have hq : id ∈ (run.state n).pending := by
      have hpl := reachable_placed (run.reachable n)
      rw [hpl.queue, List.mem_range'_1, Nat.add_sub_cancel' hpl.inits_le]
      exact ⟨Nat.le_of_not_lt hin, hid⟩
    refine run.leadsTo (P := fun s => id ∈ s.pending) (Q := fun s => id < s.inits)
      (μ := fun s => (s.queueOrder id, s.work)) turnLex_wf hfair (fun s a t hr hP hs => ?_) hq
    have hok := reachable_ok hr
    have hpl := reachable_placed hr
    rcases hpl.pending_or_opened (hpl.step hok hs) (accepted_le hok hs) hP with hP' | hQ
    · cases step_advances hs with
      | outside hother hphase hwork =>
        exact .waits hP' hother (by simp only [queueOrder, hphase, hwork])
      | next hown => exact .nearer hP' (queueOrder_step hok hs hown hP hP')
      | less hown => exact .nearer hP' (queueOrder_step hok hs hown hP hP')
    · exact .arrives hQ

/-! ## A run that never ends -/

/-- A run of steps of the loop's own is fair. -/
theorem fair_of_quiet {run : (loops wakeupFd).Forever} (h : ∀ n, (run.label n).Quiet) :
    run.Fair LoopStep.Own := fun n => ⟨n, Nat.le_refl n, (h n).1⟩

/-- A loop whose eventfd is always ready, when a connection has just come in. -/
def woken : EventLoop := (construct 3 0).accept 5

/-- One turn of a loop whose eventfd is ready. -/
theorem woken_turn {s : EventLoop} {batch : List HttpId} {u : EventLoop}
    (hp : s.phase = .polling) (hcount : s.timeoutCount < 5)
    (hint : s.interest 3 = some EventMask.inEt)
    (hchan : s.fd2channel 3 = some (some .wakeup)) (hcb : s.callbackList = batch)
    (hrun : Relation.ReflTransGen ((loops 3).OwnStep LoopStep.Quiet)
      { s with callbackList := [], phase := .running batch } (u.enter (.running [])))
    (hrest : u.timerManager.timerNodeQueue = [] ∨
      ∃ n, u.timerManager.IsTop n ∧ n.isOver u.now = false) :
    Relation.TransGen ((loops 3).OwnStep LoopStep.Quiet) s (u.enter .polling) := by
  have hwait : s.wait [(3, EventMask.inEt)] =
      s.enter (.dispatching [(.wakeup, EventMask.inEt)]) := by
    simp [EventLoop.wait, epollWait, hchan, enter]
  have h1 : (loops 3).OwnStep LoopStep.Quiet s
      (s.enter (.dispatching [(.wakeup, EventMask.inEt)])) :=
    ⟨.wait [(3, EventMask.inEt)], ⟨trivial, by simp⟩,
      hwait ▸ Steps.wait [(3, EventMask.inEt)] hp hcount (List.nodup_singleton _) fun r hr => by
        obtain rfl := List.mem_singleton.mp hr
        exact ⟨_, hint, by decide⟩⟩
  have h2 : (loops 3).OwnStep LoopStep.Quiet (s.enter (.dispatching [(.wakeup, EventMask.inEt)]))
      (s.enter (.dispatching [])) := ⟨.wakeup, ⟨trivial, by simp⟩, Steps.wakeup rfl⟩
  have h3 : (loops 3).OwnStep LoopStep.Quiet (s.enter (.dispatching []))
      { s with callbackList := [], phase := .running batch } :=
    ⟨.swap, ⟨trivial, by simp⟩, hcb ▸ Steps.swap rfl⟩
  have h4 : (loops 3).OwnStep LoopStep.Quiet (u.enter (.running [])) (u.enter .expiring) :=
    ⟨.ran, ⟨trivial, by simp⟩, Steps.ran rfl⟩
  have h5 : (loops 3).OwnStep LoopStep.Quiet (u.enter .expiring) (u.enter .polling) :=
    ⟨.rest, ⟨trivial, by simp⟩, Steps.rest rfl hrest⟩
  exact (((Relation.TransGen.single h1).tail h2).tail h3).trans_left hrun |>.tail h4 |>.tail h5

/-- The loop when the connection has been opened. -/
def wokenOpened : EventLoop :=
  ({ woken with callbackList := [], phase := .running [0] } : EventLoop).init 0

theorem woken_forever :
    ∃ run : (loops 3).Forever, run.state 0 = woken ∧ ∀ n, (run.label n).Quiet := by
  have hstart : (loops 3).Reachable (construct 3 0) := .init ⟨0, rfl⟩
  have hreach : (loops 3).Reachable woken :=
    hstart.step (Steps.accept 5 (by decide) fun id hid => absurd hid (Server.free_construct id))
  have hrest : wokenOpened.timerManager.timerNodeQueue = [] ∨
      ∃ n, wokenOpened.timerManager.IsTop n ∧ n.isOver wokenOpened.now = false :=
    Or.inr ⟨servingNode, by decide, by decide⟩
  have hinit : (loops 3).OwnStep LoopStep.Quiet
      { woken with callbackList := [], phase := .running [0] } (wokenOpened.enter (.running [])) :=
    ⟨.callback, ⟨trivial, by simp⟩, Steps.callback rfl⟩
  have hopen := woken_turn (s := woken) rfl (by decide) rfl rfl rfl (.single hinit) hrest
  have hround : Relation.TransGen ((loops 3).OwnStep LoopStep.Quiet)
      (wokenOpened.enter .polling) (wokenOpened.enter .polling) :=
    woken_turn (s := wokenOpened.enter .polling) (u := wokenOpened) rfl (by decide) rfl rfl rfl
      .refl hrest
  exact System.exists_forever_of_cycle hreach hopen hround

/-- The connection that came in is opened. -/
theorem opened_in_time_woken : ∃ run : (loops 3).Forever, run.state 0 = woken ∧
    ∃ m, 0 < (run.state m).inits := by
  obtain ⟨run, hrun, hquiet⟩ := woken_forever
  have hid : 0 < (run.state 0).accepted := by
    rw [hrun]
    exact Nat.one_pos
  obtain ⟨m, -, hm⟩ := opened_in_time run (fair_of_quiet hquiet) hid
  exact ⟨run, hrun, m, hm⟩

/-- The loop waits again and again. -/
theorem loop_comes_round_woken : ∃ run : (loops 3).Forever, run.state 0 = woken ∧
    ∃ m, 100 ≤ m ∧ (run.state m).phase = .polling := by
  obtain ⟨run, hrun, hquiet⟩ := woken_forever
  obtain ⟨m, hm, hp⟩ := (loop_comes_round 3).2 run (fair_of_quiet hquiet) 100
  exact ⟨run, hrun, m, hm, hp⟩

end EventLoop

end FlashWeb
