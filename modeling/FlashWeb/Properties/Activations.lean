import FlashWeb.Lib.Recursion
import FlashWeb.Properties.Dispatch

/-!
# How often `HandleRead` calls itself

An activation of `HandleRead` calls the next one only behind a request that it answered, and the
header of that request took at least one byte. For a first activation that goes on with a header
this needs to know that the header is not over yet, and that its request line named a method
(`Http.Resumes`); every event leaves the parser so. The bytes that are buffered or still to be
delivered are the measure: a new `read` moves bytes from one to the other.
-/

namespace FlashWeb

open Lib Lib.Recursion

instance : Nontrivial Conn where
  exists_pair_ne :=
    ⟨⟨Http.construct true, [], [], []⟩, ⟨Http.construct true, [], [], [.malformed]⟩, by simp⟩

/-! ## One call -/

/-- Behind a request the parser begins with the next one. -/
theorem GoesOn.resumes {fs : FileSystem} {c c' : Conn} (h : GoesOn fs c c') : c'.http.Resumes := by
  obtain ⟨p, rs, data, -, -, -, -, -, -⟩ := h
  exact .uri rfl rfl

/-- **A call of `HandleRead` returns, after no more activations than there are bytes, and one.** -/
theorem handleRead_returns (fs : FileSystem) (before : UInt8) {c : Conn} (hl : c.http.Live) (hr : c.http.Resumes) :
    ∃ n, Returns (handleReadBody fs before) c n (handleRead fs before c) ∧ n ≤ 1 + c.pending ∧
      ((handleRead fs before c).http.hasError = false →
        (handleRead fs before c).http.Resumes) := by
  have hstep : ∀ c : Conn, c.http.Live ∧ c.http.Resumes →
      (∃ out, Halts (handleReadBody fs before) c out ∧
        (out.http.hasError = false → out.http.Resumes)) ∨
      ∃ c', Calls (handleReadBody fs before) c c' ∧ (c'.http.Live ∧ c'.http.Resumes) ∧
        c'.pending < c.pending := by
    rintro c ⟨hl, hr⟩
    rcases handleReadBody_step fs before c hl with
      ⟨out, -, hrest, hout⟩ | ⟨c', hg, -, hlt, hcall⟩
    · exact Or.inl ⟨out, hout, hrest hr⟩
    · exact Or.inr ⟨c', hcall, ⟨hg.live fs hl, hg.resumes⟩, hlt hr⟩
  obtain ⟨n, out, hret, hn, hout⟩ := exists_returns hstep ⟨hl, hr⟩
  have hfuel : handleRead fs before c = out :=
    hret.fuel (f := handleReadFuel fs before) (fun _ _ => rfl) (by omega)
  rw [hfuel]
  exact ⟨n, hret, hn, hout⟩

/-! ## Between two events -/

theorem Http.Resumes.beforeRead {h : Http} (hr : h.Resumes) (d : Dispatch) :
    (d.beforeRead h).http.Resumes := by
  unfold Dispatch.beforeRead
  split
  · obtain ⟨wb, ev, hw, -⟩ := handleWrite_frame (d.start h)
    rw [hw]
    exact hr.of_same rfl rfl rfl
  · exact hr.of_same rfl rfl rfl

/-- A callback leaves the parser where it can go on, or the connection failed. -/
theorem Http.Resumes.beforeConn {h : Http} (hr : h.Resumes) (hl : h.Live) (d : Dispatch)
    (he : (d.beforeConn h).http.hasError = false) : (d.beforeConn h).http.Resumes := by
  unfold Dispatch.beforeConn at he ⊢
  split
  · next hread =>
    rw [if_pos hread] at he
    obtain ⟨n, -, -, hout⟩ := handleRead_returns d.fs d.before (hl.beforeRead d) (hr.beforeRead d)
    exact hout he
  · exact hr.beforeRead d

theorem Http.Resumes.run {h : Http} (hr : h.Resumes) (hl : h.Live) (d : Dispatch) :
    (d.run h).http.Resumes ∨ (d.run h).http.connectionState = .disconnected := by
  by_cases ha : d.active.epollhup ∧ ¬ d.active.epollin
  · rw [d.run_hup h ha]
    exact Or.inl (hr.of_same rfl rfl rfl)
  · rcases d.run_live hl with hlive | hclosed
    · rw [d.run_eq h ha] at hlive ⊢
      obtain ⟨st, ev, hframe⟩ := handleCurrentConn_frame (d.beforeConn h)
      rw [hframe] at hlive ⊢
      exact Or.inl ((hr.beforeConn hl d hlive.noError).of_same rfl rfl rfl)
    · exact Or.inr hclosed

theorem session_resumes {s : Session} (h : sessions.Reachable s) :
    s.http.Resumes ∨ s.http.connectionState = .disconnected := by
  refine h.invariant (I := fun s => s.http.Resumes ∨ s.http.connectionState = .disconnected) ?_ ?_
  · rintro s rfl
    exact Or.inl (.uri rfl rfl)
  · rintro s d t hs hr ⟨hopen, -, rfl⟩
    exact (hr.resolve_right hopen).run ((session_live hs).resolve_right hopen) d

/--
**`HandleRead` returns.** On an open connection, whatever `read` and `write` will answer, the call
comes to an end, in one way only; and it takes at most one activation more than there are bytes in
`read_buffer_` and still to be delivered.
-/
theorem activations_bounded {s : Session} (h : sessions.Reachable s)
    (hopen : s.http.connectionState ≠ .disconnected) (d : Dispatch) :
    (∃ n, Returns (handleReadBody d.fs d.before) (d.beforeRead s.http) n
      (handleRead d.fs d.before (d.beforeRead s.http))) ∧
    ∀ n out, Returns (handleReadBody d.fs d.before) (d.beforeRead s.http) n out →
      out = handleRead d.fs d.before (d.beforeRead s.http) ∧
        n ≤ 1 + (s.http.readBuffer.length + (delivered d.reads).length) := by
  have hl := (session_live h).resolve_right hopen
  have hr := (session_resumes h).resolve_right hopen
  obtain ⟨n, hret, hn, -⟩ := handleRead_returns d.fs d.before
    (hl.beforeRead d) (hr.beforeRead d)
  have hpending : (d.beforeRead s.http).pending =
      s.http.readBuffer.length + (delivered d.reads).length := by
    unfold Dispatch.beforeRead Conn.pending
    split
    · obtain ⟨wb, ev, hw, hreads⟩ := handleWrite_frame (d.start s.http)
      rw [hw, hreads]
      rfl
    · rfl
  refine ⟨⟨n, hret⟩, fun n' out hret' => ?_⟩
  obtain ⟨rfl, rfl⟩ := hret.unique hret'
  exact ⟨rfl, hpending ▸ hn⟩

/-- The call in which a whole request arrives returns. -/
theorem activations_bounded_patientPeer :
    (Session.opened true).http.connectionState ≠ .disconnected ∧
      (∃ n, Returns (handleReadBody patientPeer.fs patientPeer.before)
        (patientPeer.beforeRead (Session.opened true).http) n
        (handleRead patientPeer.fs patientPeer.before
          (patientPeer.beforeRead (Session.opened true).http))) ∧
      ∀ n out, Returns (handleReadBody patientPeer.fs patientPeer.before)
          (patientPeer.beforeRead (Session.opened true).http) n out → n ≤ 24 := by
  have hopen : (Session.opened true).http.connectionState ≠ .disconnected := by
    simp [Session.opened, Http.construct]
  obtain ⟨hret, hbound⟩ := activations_bounded (.init rfl) hopen patientPeer
  exact ⟨hopen, hret, fun n out h => (hbound n out h).2⟩

end FlashWeb
