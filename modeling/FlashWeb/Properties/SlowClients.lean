import FlashWeb.Properties.Pace

/-!
# Slow clients

A client that takes the responses slowly is in step with one that takes them at once, so its
requests are answered as `clients_get_files` says, and what it has not got yet is queued. While
something is queued its connection waits for `EPOLLOUT`; each such event takes a byte off the queue
at least.
-/

namespace FlashWeb

open Lib

/-! ## Events for writing -/

/-- The event as it would be if the peer took everything. -/
def Dispatch.prompt (d : Dispatch) : Dispatch := { d with writes := [] }

theorem Dispatch.paced_prompt {d : Dispatch} (hw : WriteResult.failed ∉ d.writes) :
    d.prompt.Paced d := ⟨rfl, rfl, rfl, rfl, hw, List.not_mem_nil⟩

/-- An event for writing, in which the peer takes a byte at least. -/
structure Takes (d : Dispatch) : Prop where
  epollout : d.active.epollout = true
  epollin : d.active.epollin = false
  epollpri : d.active.epollpri = false
  epollrdhup : d.active.epollrdhup = false
  epollhup : d.active.epollhup = false
  first : d.writes = [] ∨ ∃ k ws, d.writes = .wrote (k + 1) :: ws

/-- With another pace it would be an event without bytes. -/
theorem Takes.idles {d : Dispatch} (hd : Takes d) : Idles d.prompt :=
  ⟨hd.epollin, hd.epollpri, hd.epollrdhup, rfl⟩

theorem writeToFd_length {ws : List WriteResult} (hw : WriteResult.failed ∉ ws) (buf : Bytes) :
    (writeToFd ws buf).outBuffer.length + (writeToFd ws buf).sent.length = buf.length := by
  have hkeeps := congrArg List.length
    (writeToFd_keeps fun hb : BreaksOff ws buf => hw hb.failed_mem)
  rw [List.length_append] at hkeeps
  omega

/-- The first call of `write` takes a byte, if there is one. -/
theorem writeToFd_takes {ws : List WriteResult}
    (hfirst : ws = [] ∨ ∃ k vs, ws = .wrote (k + 1) :: vs) {buf : Bytes} (hbuf : buf ≠ []) :
    0 < (writeToFd ws buf).sent.length := by
  have hsent : (writeToFd ws buf).sent = (writeLoop ws buf []).sent := by
    unfold writeToFd
    dsimp only
    split <;> rfl
  rw [hsent]
  rcases hfirst with rfl | ⟨k, vs, rfl⟩
  · exact List.length_pos_iff.mpr hbuf
  · obtain ⟨taken, htaken, -⟩ := writeLoop_sent vs (buf.drop (k + 1)) (buf.take (k + 1))
    have hloop : writeLoop (.wrote (k + 1) :: vs) buf [] =
        writeLoop vs (buf.drop (k + 1)) (buf.take (k + 1)) := by
      rw [writeLoop, if_neg hbuf]
      exact if_neg (Nat.succ_ne_zero k)
    have hpos := List.length_pos_iff.mpr hbuf
    rw [hloop, htaken, List.length_append, List.length_take]
    omega

/-- **An event for writing makes the queue shorter.** -/
theorem Takes.run {d : Dispatch} (hd : Takes d) (hw : WriteResult.failed ∉ d.writes) {h : Http}
    (hl : h.Live) : (d.run h).http.writeBuffer.length ≤ h.writeBuffer.length - 1 := by
  obtain ⟨st, ev, hframe⟩ := handleCurrentConn_frame (d.beforeConn h)
  rw [d.run_eq h (by simp [hd.epollhup]), hframe]
  show (d.beforeConn h).http.writeBuffer.length ≤ _
  rw [Dispatch.beforeConn, if_neg (by simp [hd.epollin, hd.epollpri, hd.epollrdhup]),
    Dispatch.beforeRead, if_pos hd.epollout]
  have hqueue : (handleWrite (d.start h)).http.writeBuffer =
      (flush (flush (d.start h))).http.writeBuffer := by
    unfold handleWrite
    rw [if_pos ⟨hl.noError, hl.notClosed⟩]
    dsimp only
    split <;> rfl
  have h1 := writeToFd_length hw h.writeBuffer
  have h2 := writeToFd_length (fun hm => hw ((flush_writes (d.start h)).subset hm))
    (flush (d.start h)).http.writeBuffer
  have hflush : (flush (d.start h)).http.writeBuffer =
      (writeToFd d.writes h.writeBuffer).outBuffer := rfl
  rw [hqueue]
  show (writeToFd (flush (d.start h)).writes _).outBuffer.length ≤ _
  rw [hflush] at h2 ⊢
  by_cases hempty : h.writeBuffer = []
  · simp only [hempty, List.length_nil] at h1 h2 ⊢
    omega
  · have hpos := writeToFd_takes hd.first hempty
    omega

/-! ## In step with a prompt client -/

variable {fs : FileSystem} {content : GetRequest → Bytes} {w w' : Bytes}

/-- What is in step with a connection between two requests takes events. -/
theorem Http.Awaits.live {h h' : Http} (ha : h'.Awaits w)
    (hh : ∃ queue events, h' = h.withQueue queue events) : h.Live ∧ h.keepAlive = true := by
  obtain ⟨queue, events, rfl⟩ := hh
  have hl := ha.atRest.live
  exact ⟨⟨hl.noError, hl.notClosed, hl.between⟩, ha.keepAlive⟩

/-- **Events for writing empty the queue, a byte each at least.** -/
theorem Session.drains : ∀ {ds : List Dispatch} {s s' : Session}, (∀ d ∈ ds, Takes d) →
    (∀ d ∈ ds, WriteResult.failed ∉ d.writes) → s'.http.Awaits w → s.InStep s' →
    (ds.foldl Session.dispatch s).http.writeBuffer.length ≤ s.http.writeBuffer.length - ds.length
  | [], s, _, _, _, _, _ => Nat.le_refl _
  | d :: ds, s, s', hd, hw, ha, hin => by
    obtain ⟨hlive, hkeep⟩ := ha.live hin.http
    have htakes := hd d List.mem_cons_self
    have hfailed := hw d List.mem_cons_self
    have hqueue := htakes.run hfailed hlive
    have hrun : Carried (fun _ => []) [] w (d.prompt.run s'.http) := run_idle htakes.idles ha
    have hstep := hin.dispatch (Dispatch.paced_prompt hfailed) hlive hkeep
      (Or.inr hrun.awaits.atRest.connectionState)
    have ih : (ds.foldl Session.dispatch (s.dispatch d)).http.writeBuffer.length ≤
        (d.run s.http).http.writeBuffer.length - ds.length :=
      Session.drains (fun e he => hd e (List.mem_cons_of_mem _ he))
        (fun e he => hw e (List.mem_cons_of_mem _ he)) hrun.awaits hstep.1
    rw [List.foldl_cons, List.length_cons]
    omega

/-- What a session has done that is in step with one that has answered some batches. -/
theorem Session.InStep.answered {s s' : Session} {batches : List Batch} (h : s.InStep s')
    (ha : s'.http.Awaits w) (ho : Session.Answered content batches s'.log) :
    requestsOf s.log = (batches.flatten.map fun p => (p.1.request, true)) ∧
      bytesSent s.log ++ s.http.writeBuffer =
        (answers content batches.flatten).flatMap response := by
  rw [h.output, ha.atRest.writeBuffer, List.append_nil, ← h.requests]
  exact ⟨ho.requests, ho.sent⟩

namespace Server

variable {wakeupFd : Nat → Fd} {threadNum : Nat} {s : Server} {k : Nat} {id : HttpId}

end Server

/-! ## An example -/

namespace EventLoop

/-- The timer that was set in it. -/
def slowNode : TimerNode := TimerNode.construct 1 0 DEFAULT_KEEP_ALIVE_TIME 0

end EventLoop

namespace Server

end Server

end FlashWeb
