import FlashWeb.Properties.Progress
import FlashWeb.Properties.Workers
import Mathlib.Algebra.BigOperators.Group.Finset.Piecewise
import Mathlib.Data.Nat.ModEq

/-!
# How the connections are shared out

`GetNextLoop` goes round, and between it and `RunFunction` nothing else is handed out. So however
the workers run, the connections that have been queued on them are shared out evenly: `shareOf` is
what each worker has got of `n` connections.
-/

namespace FlashWeb

open Lib

/-! ## Shares -/

/-- How many of the numbers below `n` leave `k` when divided by `m`. -/
def shareOf (m n k : ℕ) : ℕ := (n + (m - 1 - k)) / m

theorem shareOf_zero {m k : ℕ} (hk : k < m) : shareOf m 0 k = 0 :=
  Nat.div_eq_of_lt (by omega)

/-- One more goes to the one whose turn it is. -/
theorem shareOf_succ {m k : ℕ} (hk : k < m) (n : ℕ) :
    shareOf m (n + 1) k = if n % m = k then shareOf m n k + 1 else shareOf m n k := by
  have hdvd : m ∣ n + (m - 1 - k) + 1 ↔ n % m = k := by
    have hm : n + (m - 1 - k) + 1 = n + (m - k) := by omega
    have hk' : k + (m - k) = m := Nat.add_sub_cancel' hk.le
    have hcancel : Nat.ModEq m (n + (m - k)) (k + (m - k)) ↔ Nat.ModEq m n k :=
      ⟨Nat.ModEq.add_right_cancel' _, Nat.ModEq.add_right _⟩
    rw [hk', Nat.ModEq, Nat.mod_self, Nat.ModEq, Nat.mod_eq_of_lt hk] at hcancel
    rw [hm, Nat.dvd_iff_mod_eq_zero, hcancel]
  unfold shareOf
  rw [Nat.add_right_comm, Nat.succ_div]
  by_cases h : n % m = k
  · rw [if_pos (hdvd.mpr h), if_pos h]
  · rw [if_neg fun hd => h (hdvd.mp hd), if_neg h]
    rfl

/-- Those who come first have as many as the others, or one more. -/
theorem shareOf_le {m j k : ℕ} (hjk : j ≤ k) (hk : k < m) (n : ℕ) :
    shareOf m n k ≤ shareOf m n j ∧ shareOf m n j ≤ shareOf m n k + 1 := by
  unfold shareOf
  constructor
  · exact Nat.div_le_div_right (by omega)
  · rw [← Nat.add_div_right _ (Nat.zero_lt_of_lt hk)]
    exact Nat.div_le_div_right (by omega)

/-! ## The invariant -/

namespace Server

variable {wakeupFd : Nat → Fd} {threadNum : Nat} {s t : Server}

/-- How many loops were handed out and how many connections queued when the main thread is at a
stage. -/
def HandedAt (s : Server) : MainStage → Prop
  | .starting => s.handed = [] ∧ s.queued = []
  | .gettingLoop _ => s.handed = [] ∧ s.queued = []
  | .handing k _ =>
    k = s.queued.length % s.pool.threadNum ∧ s.handed.length = s.queued.length + 1
  | _ => s.handed.length = s.queued.length

/-- The loops have their shares of the connections queued so far. -/
structure Shared (s : Server) : Prop where
  handed : s.HandedAt s.main
  shares : ∀ k < s.started,
    (s.threads k).loop.accepted = shareOf s.pool.threadNum s.queued.length k
  total : ∑ k ∈ Finset.range s.started, (s.threads k).loop.accepted = s.queued.length

theorem Shared.at (h : s.Shared) {m : MainStage} (hm : s.main = m) : s.HandedAt m := hm ▸ h.handed

/-- A thread with as many connections as before. -/
theorem Shared.setThread (h : s.Shared) {k : Nat} {thread : EventLoopThread}
    (ht : thread.loop.accepted = (s.threads k).loop.accepted) : (s.setThread k thread).Shared := by
  have hsame : ∀ j, ((s.setThread k thread).threads j).loop.accepted =
      (s.threads j).loop.accepted := by
    intro j
    by_cases hjk : j = k
    · subst hjk
      rw [setThread_self, ht]
    · rw [setThread_ne _ _ hjk]
  refine ⟨h.handed, fun j hj => (hsame j).trans (h.shares j hj), ?_⟩
  rw [Finset.sum_congr rfl fun j _ => hsame j]
  exact h.total

/-- A connection is queued on the loop whose turn it was. -/
theorem Shared.runFunction (h : s.Shared) (hok : s.Ok) {k : Nat} {fd : Fd}
    (hmain : s.main = .handing k fd) : (s.runFunction k fd).Shared := by
  obtain ⟨hturn, hlen⟩ := h.at hmain
  obtain ⟨hlt, hstarted, -⟩ := hok.at hmain
  have hqueued : (s.runFunction k fd).queued.length = s.queued.length + 1 := by
    simp [Server.runFunction]
  have hone : ∀ j, ((s.runFunction k fd).threads j).loop.accepted =
      (s.threads j).loop.accepted + if j = k then 1 else 0 := by
    intro j
    show (Function.update s.threads k _ j).loop.accepted = _
    by_cases hjk : j = k
    · subst hjk
      rw [Function.update_self, if_pos rfl]
      rfl
    · rw [Function.update_of_ne hjk, if_neg hjk, Nat.add_zero]
  constructor
  · show s.handed.length = (s.runFunction k fd).queued.length
    rw [hqueued, hlen]
  · intro j hj
    have hjm : j < s.pool.threadNum := hstarted ▸ hj
    rw [hone, hqueued, h.shares j hj]
    show _ = shareOf s.pool.threadNum (s.queued.length + 1) j
    rw [shareOf_succ hjm, ← hturn]
    by_cases hjk : j = k
    · rw [if_pos hjk, if_pos hjk.symm]
    · rw [if_neg hjk, if_neg (Ne.symm hjk), Nat.add_zero]
  · rw [Finset.sum_congr rfl fun j _ => hone j, Finset.sum_add_distrib, hqueued]
    show ∑ j ∈ Finset.range s.started, _ + ∑ j ∈ Finset.range s.started, _ = _
    rw [h.total, Finset.sum_ite_eq', if_pos (Finset.mem_range.mpr hlt)]

/-- **Every step keeps the shares.** -/
theorem Shared.step (h : s.Shared) (hok : s.Ok)
    (hloops : ∀ k < s.started, (loops (wakeupFd k)).Reachable (s.threads k).loop)
    {a : ServerStep} (hs : ServerSteps wakeupFd s a t) : t.Shared := by
  cases hs with
  | spawn now hmain hlt =>
    obtain ⟨hh, hq⟩ := h.at hmain
    have hold : ∀ k < s.started, (s.spawn (wakeupFd s.started) now).threads k = s.threads k :=
      fun k hk => setThread_ne _ _ hk.ne
    have hnew : ((s.spawn (wakeupFd s.started) now).threads s.started).loop.accepted = 0 := by
      simp [Server.spawn, EventLoop.construct, EventLoop.epollAdd]
    refine ⟨⟨hh, hq⟩, fun k hk => ?_, ?_⟩
    · show _ = shareOf s.pool.threadNum s.queued.length k
      rcases Nat.lt_succ_iff_lt_or_eq.mp hk with hlt' | rfl
      · rw [hold k hlt']
        exact h.shares k hlt'
      · rw [hnew, hq, List.length_nil, shareOf_zero hlt]
    · show ∑ k ∈ Finset.range (s.started + 1), _ = s.queued.length
      rw [Finset.sum_range_succ, hnew, Nat.add_zero, Finset.sum_congr rfl fun k hk => by
        rw [hold k (Finset.mem_range.mp hk)]]
      exact h.total
  | getLoop hmain _ => exact ⟨h.at hmain, h.shares, h.total⟩
  | listen hmain _ =>
    obtain ⟨hh, hq⟩ := h.at hmain
    refine ⟨?_, h.shares, h.total⟩
    show s.handed.length = s.queued.length
    rw [hh, hq]
  | wait ready hmain _ =>
    refine ⟨?_, h.shares, h.total⟩
    cases ready with
    | false => exact h.at hmain
    | true => exact h.at hmain
  | @accept k pool fd hmain _ hk =>
    obtain ⟨hturn, -, hnum, -, -⟩ := hok.getNextLoop hmain hk
    have hlen : s.handed.length = s.queued.length := h.at hmain
    refine ⟨⟨?_, ?_⟩, ?_, h.total⟩
    · show k = s.queued.length % pool.threadNum
      rw [hturn, hok.next, hlen, hnum]
    · show (s.handed ++ [s.take k]).length = s.queued.length + 1
      simp [hlen]
    · show ∀ j < s.started, (s.threads j).loop.accepted =
        shareOf pool.threadNum s.queued.length j
      rw [hnum]
      exact h.shares
  | runFunction hmain _ => exact h.runFunction hok hmain
  | accepted hmain => exact ⟨h.at hmain, h.shares, h.total⟩
  | worker k hk _ haccept hs =>
    exact h.setThread (EventLoop.accepted_eq (EventLoop.reachable_ok (hloops k hk)) hs haccept)
  | leave k => exact h.setThread rfl

/--
**The connections are shared out evenly.** In every run, whatever the workers do, the connections
queued so far all lie on the loops that have been started; a worker has as many as any that comes
after it in the pool or one more, and never fewer.
-/
theorem connections_shared (h : (servers wakeupFd threadNum).Reachable s) :
    (∀ j k, j ≤ k → k < s.started →
      (s.threads k).loop.accepted ≤ (s.threads j).loop.accepted ∧
        (s.threads j).loop.accepted ≤ (s.threads k).loop.accepted + 1) ∧
      ∑ k ∈ Finset.range s.started, (s.threads k).loop.accepted = s.queued.length := by
  have hshared : s.Shared := by
    refine h.invariant (I := Shared) ?_ fun s a t hr hI hs =>
      hI.step (ok_of_reachable hr) (worker_reachable hr) hs
    rintro s rfl
    exact ⟨⟨rfl, rfl⟩, fun k hk => absurd hk (Nat.not_lt_zero k), rfl⟩
  refine ⟨fun j k hjk hk => ?_, hshared.total⟩
  rw [hshared.shares k hk, hshared.shares j (hjk.trans_lt hk)]
  exact shareOf_le hjk (hk.trans_le (ok_of_reachable h).started_le) _

/-- Three connections come to two workers, whose eventfds are 3 and 4. -/
theorem three_connections : ∃ s, (servers (fun k => 3 + k) 2).Reachable s ∧ s.started = 2 ∧
    s.queued.length = 3 := by
  have h0 : (servers (fun k => 3 + k) 2).Reachable (Server.construct 2) := .init rfl
  have h1 := h0.step (ServerSteps.spawn 0 rfl (by decide))
  have h2 := h1.step (ServerSteps.getLoop rfl rfl)
  have h3 := h2.step (ServerSteps.spawn 0 rfl (by decide))
  have h4 := h3.step (ServerSteps.getLoop rfl rfl)
  have h5 := h4.step (ServerSteps.listen rfl (by decide))
  have h6 := h5.step (ServerSteps.wait true rfl (by decide))
  have h7 := h6.step (ServerSteps.accept 5 rfl (by decide) rfl)
  have h8 := h7.step (ServerSteps.runFunction rfl
    (Steps.accept 5 (by decide) fun id hid => absurd hid (free_construct id)))
  have h9 := h8.step (ServerSteps.accept 6 rfl (by decide) rfl)
  have h10 := h9.step (ServerSteps.runFunction rfl
    (Steps.accept 6 (by decide) fun id hid => absurd hid (free_construct id)))
  have h11 := h10.step (ServerSteps.accept 7 rfl (by decide) rfl)
  -- the first worker has descriptor 5 already
  have hfree : ∀ id, ((EventLoop.construct 3 0).accept 5).fdOf id ≠ 7 := by
    intro id
    show Function.update (fun _ => 0) 0 5 id ≠ 7
    by_cases hid : id = 0
    · rw [hid, Function.update_self]
      decide
    · rw [Function.update_of_ne hid]
      decide
  have h12 := h11.step (ServerSteps.runFunction rfl
    (Steps.accept 7 (by decide) fun id _ => hfree id))
  exact ⟨_, h12, rfl, rfl⟩

/-- The worker of the pool that comes first has two of them. -/
theorem connections_shared_welcome : ∃ s, (servers (fun k => 3 + k) 2).Reachable s ∧
    s.queued.length = 3 ∧ (s.threads 0).loop.accepted = 2 ∧ (s.threads 1).loop.accepted = 1 := by
  obtain ⟨s, h, hstarted, hqueued⟩ := three_connections
  obtain ⟨heven, htotal⟩ := connections_shared h
  obtain ⟨hle, hge⟩ := heven 0 1 (Nat.zero_le 1) (hstarted ▸ Nat.one_lt_two)
  rw [hstarted, hqueued, Finset.sum_range_succ, Finset.sum_range_one] at htotal
  have hshares : ∀ a b : Nat, b ≤ a → a ≤ b + 1 → a + b = 3 → a = 2 ∧ b = 1 := by omega
  obtain ⟨hfirst, hsecond⟩ := hshares _ _ hle hge htotal
  exact ⟨s, h, hqueued, hfirst, hsecond⟩

end Server

end FlashWeb
