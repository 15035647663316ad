import FlashWeb.Connection
import FlashWeb.Lib.Simulation
import FlashWeb.Properties.HandleRead

/-!
# What one event can do

`HandleEvents` is put together from a handful of steps: reading and parsing, one attempt to write,
answering a request, `reset`, an error page followed by `HandleClose`, and what `HandleCurrentConn`
decides. `Preserved` lists them, and `Preserved.run` is the rule by which a property that each of
them preserves holds after the event. The first use is that a connection which is still open after
an event is live, so that its next event finds it as `handleRead_run` wants it.
-/

namespace FlashWeb

open Lib

/-! ## The rule -/

/-- `HandleClose` after a request that cannot be answered. -/
def Conn.failWith (c : Conn) : Conn := handleClose (badRequest c)

/-- Every step of `HandleRead` and `HandleWrite` preserves `I`. -/
structure PreservedByRead (fs : FileSystem) (I : Conn → Prop) : Prop where
  parsed : ∀ c p rs, I c → c.http.hasError = false → ReadFrame c.http p → I (c.parsed p rs)
  flush : ∀ c, I c → c.http.hasError = false → c.http.connectionState ≠ .disconnected → I (flush c)
  listen : ∀ c ev, I c → I (c.listen ev)
  served : ∀ c data, I c → c.http.hasError = false → c.http.Ready →
    fs.file (cStr c.http.filePath) = some data → I (served c data)
  reset : ∀ c, I c → c.http.hasError = false → c.http.processState = .stateFinish → I (reset c)
  malformed : ∀ c, I c → c.http.hasError = false → I (c.emit .malformed).failWith
  refused : ∀ c, I c → c.http.hasError = false → c.http.Ready →
    fs.file (cStr c.http.filePath) = none → I (FlashWeb.refused fs c).failWith

/-- Every step of an event preserves `I`. -/
structure Preserved (fs : FileSystem) (I : Conn → Prop) : Prop extends PreservedByRead fs I where
  seperateTimer : ∀ c, I c → I (c.emit .seperateTimer)
  update : ∀ c ev ms, I c → c.http.hasError = false → c.http.connectionState = .connected →
    I (c.emit (.updateEpoller ev ms))
  close : ∀ c, I c → c.http.hasError = false → I (handleClose c)

/-! ## HandleCurrentConn -/

/-- What `HandleCurrentConn` makes of a connection. -/
inductive Concludes (c : Conn) : Conn → Prop where
  | busy (ms : Nat) : c.http.hasError = false → c.http.connectionState = .connected →
      c.http.toListenEvents ≠ EventMask.zero → 0 < ms →
      Concludes c (((c.emit .seperateTimer).listen EventMask.outEt).emit
        (.updateEpoller EventMask.outEt ms))
  | idle : c.http.hasError = false → c.http.connectionState = .connected →
      c.http.toListenEvents = EventMask.zero → c.http.keepAlive = true →
      Concludes c (((c.emit .seperateTimer).listen EventMask.inEt).emit
        (.updateEpoller EventMask.inEt DEFAULT_KEEP_ALIVE_TIME))
  | finished : c.http.hasError = false → c.http.connectionState = .connected →
      c.http.toListenEvents = EventMask.zero → c.http.keepAlive = false →
      Concludes c (handleClose (c.emit .seperateTimer))
  | draining : c.http.hasError = false → c.http.connectionState = .disconnecting →
      c.http.toListenEvents.epollout = true →
      Concludes c ((c.emit .seperateTimer).listen EventMask.outEt)
  | drained : c.http.hasError = false → c.http.connectionState = .disconnecting →
      c.http.toListenEvents.epollout = false →
      Concludes c (handleClose (c.emit .seperateTimer))
  | gone : c.http.hasError = true ∨ c.http.connectionState = .disconnected →
      Concludes c (c.emit .seperateTimer)

theorem handleCurrentConn_concludes (c : Conn) : Concludes c (handleCurrentConn c) := by
  unfold handleCurrentConn
  dsimp only
  split
  · next hc =>
    split
    · next hev =>
      split
      · exact .busy DEFAULT_KEEP_ALIVE_TIME hc.1 hc.2 hev (by decide)
      · exact .busy DEFAULT_EXPIRE_TIME hc.1 hc.2 hev (by decide)
    · next hev =>
      have hzero : c.http.toListenEvents = EventMask.zero := of_not_not hev
      split
      · next hk =>
        have hmask : { (c.emit .seperateTimer).http.toListenEvents with
            epollin := true, epollet := true } = EventMask.inEt := by
          rw [Conn.emit_http, hzero]
          rfl
        rw [hmask]
        exact .idle hc.1 hc.2 hzero hk
      · next hk => exact .finished hc.1 hc.2 hzero (by simpa using hk)
  · next hc =>
    split
    · next hd =>
      split
      · next hev => exact .draining hd.1 hd.2 hev
      · next hev => exact .drained hd.1 hd.2 (by simpa using hev)
    · next hd =>
      refine .gone ?_
      simp only [Conn.emit_http] at hc hd
      cases he : c.http.hasError with
      | true => exact Or.inl rfl
      | false =>
        cases hst : c.http.connectionState with
        | connected => exact absurd ⟨he, hst⟩ hc
        | disconnecting => exact absurd ⟨he, hst⟩ hd
        | disconnected => exact Or.inr rfl

/-! ## The rule, applied -/

section

variable {fs : FileSystem} {I : Conn → Prop}

theorem PreservedByRead.handleWrite (hI : PreservedByRead fs I) {c : Conn} (h : I c) :
    I (handleWrite c) := by
  unfold FlashWeb.handleWrite
  split
  · next hw =>
    have h1 := hI.flush c h hw.1 hw.2
    have h2 := hI.flush (FlashWeb.flush c) h1 hw.1 hw.2
    dsimp only
    split
    · exact hI.listen _ _ h2
    · exact h2
  · exact h

theorem PreservedByRead.writeResponse (hI : PreservedByRead fs I) {c : Conn} (h : I c) :
    I (writeResponse c) := by
  unfold FlashWeb.writeResponse
  split
  · exact hI.handleWrite h
  · exact h

theorem PreservedByRead.answered (hI : PreservedByRead fs I) {c : Conn} {p : Http}
    {rs : List ReadResult} {data : Bytes} (h : I c) (he : c.http.hasError = false)
    (hf : ReadFrame c.http p) (hr : p.Ready) (hd : fs.file (cStr p.filePath) = some data) :
    I (FlashWeb.reset (FlashWeb.writeResponse (FlashWeb.served (c.parsed p rs) data))) := by
  have hp : (c.parsed p rs).http.hasError = false := hf.hasError.trans he
  have hs := hI.served (c.parsed p rs) data (hI.parsed c p rs h he hf) hp hr hd
  obtain ⟨wb, ev, hw, -⟩ := writeResponse_frame (FlashWeb.served (c.parsed p rs) data)
  refine hI.reset _ (hI.writeResponse hs) ?_ ?_
  · rw [hw]
    exact hp
  · rw [hw]
    rfl

theorem PreservedByRead.handleRead (hI : PreservedByRead fs I) (before : UInt8) {c : Conn}
    (hl : c.http.Live) (h : I c) : I (handleRead fs before c) := by
  have hrun := handleRead_run fs before c hl
  generalize FlashWeb.handleRead fs before c = out at hrun
  induction hrun with
  | @stop c out hs =>
    have he := hl.noError
    cases hs with
    | malformed p rs hf _ => exact hI.malformed _ (hI.parsed c p rs h he hf) (hf.hasError.trans he)
    | refused p rs hf _ hr hd =>
      exact hI.refused _ (hI.parsed c p rs h he hf) (hf.hasError.trans he) hr hd
    | waiting p rs hf _ => exact hI.listen _ _ (hI.writeResponse (hI.parsed c p rs h he hf))
    | last p rs data hf _ hr hd _ => exact hI.answered h he hf hr hd
  | @next c c' out hg _ ih =>
    have hl' := hg.live fs hl
    obtain ⟨p, rs, data, hf, -, hr, hd, -, -⟩ := hg
    exact ih hl' (hI.answered h hl.noError hf hr hd)

theorem Preserved.handleCurrentConn (hI : Preserved fs I) {c : Conn} (h : I c) :
    I (handleCurrentConn c) := by
  have hs := hI.seperateTimer c h
  have hout := handleCurrentConn_concludes c
  generalize FlashWeb.handleCurrentConn c = out at hout
  cases hout with
  | busy ms he hc _ _ => exact hI.update _ _ _ (hI.listen _ _ hs) he hc
  | idle he hc _ _ => exact hI.update _ _ _ (hI.listen _ _ hs) he hc
  | finished he => exact hI.close _ hs he
  | draining => exact hI.listen _ _ hs
  | drained he => exact hI.close _ hs he
  | gone => exact hs

end

/-- The connection as the callbacks of an event find it. -/
def Dispatch.start (d : Dispatch) (h : Http) : Conn where
  http := { h with toListenEvents := EventMask.zero }
  reads := d.reads
  writes := d.writes
  trace := []

theorem Http.Live.start {h : Http} (hl : h.Live) (d : Dispatch) : (d.start h).http.Live :=
  ⟨hl.noError, hl.notClosed, hl.between⟩

theorem Http.Live.handleWrite {c : Conn} (hl : c.http.Live) : (handleWrite c).http.Live := by
  obtain ⟨wb, ev, hw, -⟩ := handleWrite_frame c
  rw [hw]
  exact ⟨hl.noError, hl.notClosed, hl.between⟩

/-- The connection when `HandleRead` is called for an event. -/
def Dispatch.beforeRead (d : Dispatch) (h : Http) : Conn :=
  if d.active.epollout then handleWrite (d.start h) else d.start h

/-- The connection when `HandleCurrentConn` is called for an event. -/
def Dispatch.beforeConn (d : Dispatch) (h : Http) : Conn :=
  if d.active.epollin ∨ d.active.epollpri ∨ d.active.epollrdhup then
    handleRead d.fs d.before (d.beforeRead h)
  else d.beforeRead h

/-- `HandleEvents` returns at once when the peer is gone. -/
theorem Dispatch.run_hup {d : Dispatch} (h : Http) (ha : d.active.epollhup ∧ ¬ d.active.epollin) :
    d.run h = d.start h := if_pos ha

/-- Otherwise it ends with `HandleCurrentConn`. -/
theorem Dispatch.run_eq {d : Dispatch} (h : Http)
    (ha : ¬ (d.active.epollhup ∧ ¬ d.active.epollin)) :
    d.run h = handleCurrentConn (d.beforeConn h) := if_neg ha

theorem Http.Live.beforeRead {h : Http} (hl : h.Live) (d : Dispatch) :
    (d.beforeRead h).http.Live := by
  unfold Dispatch.beforeRead
  split
  · exact (hl.start d).handleWrite
  · exact hl.start d

theorem PreservedByRead.beforeRead {d : Dispatch} {I : Conn → Prop} (hI : PreservedByRead d.fs I)
    {h : Http} (h0 : I (d.start h)) : I (d.beforeRead h) := by
  unfold Dispatch.beforeRead
  split
  · exact hI.handleWrite h0
  · exact h0

theorem PreservedByRead.beforeConn {d : Dispatch} {I : Conn → Prop} (hI : PreservedByRead d.fs I)
    {h : Http} (hl : h.Live) (h0 : I (d.start h)) : I (d.beforeConn h) := by
  unfold Dispatch.beforeConn
  split
  · exact hI.handleRead d.before (hl.beforeRead d) (hI.beforeRead h0)
  · exact hI.beforeRead h0

/-- **The rule for one event on a live connection.** -/
theorem Preserved.run {d : Dispatch} {I : Conn → Prop} (hI : Preserved d.fs I) {h : Http}
    (hl : h.Live) (h0 : I (d.start h)) : I (d.run h) := by
  by_cases ha : d.active.epollhup ∧ ¬ d.active.epollin
  · rw [d.run_hup h ha]
    exact h0
  · rw [d.run_eq h ha]
    exact hI.handleCurrentConn (hI.beforeConn hl h0)

/-! ## What is still open is live -/

/-- Closed because of an error. -/
structure Http.Failed (h : Http) : Prop where
  hasError : h.hasError = true
  closed : h.connectionState = .disconnected

/-- What `HandleCurrentConn` leaves alone has failed. -/
theorem Http.Failed.of_gone {h : Http} (hl : h.Live ∨ h.Failed)
    (hg : h.hasError = true ∨ h.connectionState = .disconnected) : h.Failed := by
  refine hl.resolve_left ?_
  intro hlive
  rcases hg with hg | hg
  · exact absurd (hg.symm.trans hlive.noError) (by simp)
  · exact hlive.notClosed hg

theorem handleRead_live {fs : FileSystem} {before : UInt8} {c : Conn} (hl : c.http.Live) :
    (handleRead fs before c).http.Live ∨ (handleRead fs before c).http.Failed := by
  have hrun := handleRead_run fs before c hl
  generalize handleRead fs before c = out at hrun
  induction hrun with
  | @stop c out hs =>
    cases hs with
    | malformed p rs hf _ => exact Or.inr ⟨rfl, rfl⟩
    | refused p rs hf _ hr hd => exact Or.inr ⟨rfl, rfl⟩
    | waiting p rs hf hb =>
      obtain ⟨wb, ev, hw, -⟩ := writeResponse_frame (c.parsed p rs)
      refine Or.inl ?_
      simp only [Conn.listen, hw]
      exact ⟨hf.hasError.trans hl.noError, hf.notClosed hl.notClosed, hb⟩
    | last p rs data hf _ hr hd _ =>
      obtain ⟨wb, ev, hw, -⟩ := writeResponse_frame (served (c.parsed p rs) data)
      refine Or.inl ?_
      simp only [reset, Conn.emit_http, hw]
      exact ⟨hf.hasError.trans hl.noError, hf.notClosed hl.notClosed, Or.inl rfl⟩
  | next hg _ ih => exact ih (hg.live _ hl)

theorem Http.Live.listen {c : Conn} (hl : c.http.Live) (ev : EventMask) :
    (c.listen ev).http.Live :=
  ⟨hl.noError, hl.notClosed, hl.between⟩

/-- `HandleCurrentConn` changes the connection's state and the mask. -/
theorem handleCurrentConn_frame (c : Conn) : ∃ st ev, (handleCurrentConn c).http =
    { c.http with connectionState := st, toListenEvents := ev } := by
  have hout := handleCurrentConn_concludes c
  generalize handleCurrentConn c = out at hout
  cases hout with
  | busy => exact ⟨c.http.connectionState, _, rfl⟩
  | idle => exact ⟨c.http.connectionState, _, rfl⟩
  | finished => exact ⟨.disconnected, c.http.toListenEvents, rfl⟩
  | draining => exact ⟨c.http.connectionState, _, rfl⟩
  | drained => exact ⟨.disconnected, c.http.toListenEvents, rfl⟩
  | gone => exact ⟨c.http.connectionState, c.http.toListenEvents, rfl⟩

theorem handleCurrentConn_live {c : Conn}
    (h : c.http.Live ∨ c.http.connectionState = .disconnected) :
    (handleCurrentConn c).http.Live ∨
      (handleCurrentConn c).http.connectionState = .disconnected := by
  have hout := handleCurrentConn_concludes c
  generalize handleCurrentConn c = out at hout
  cases hout with
  | busy => exact h.imp (·.listen _) id
  | idle => exact h.imp (·.listen _) id
  | finished => exact Or.inr rfl
  | draining => exact h.imp (·.listen _) id
  | drained => exact Or.inr rfl
  | gone => exact h

theorem Dispatch.beforeConn_live (d : Dispatch) {h : Http} (hl : h.Live) :
    (d.beforeConn h).http.Live ∨ (d.beforeConn h).http.Failed := by
  unfold Dispatch.beforeConn
  split
  · exact handleRead_live (hl.beforeRead d)
  · exact Or.inl (hl.beforeRead d)

/-- **After an event a connection is live or closed.** -/
theorem Dispatch.run_live (d : Dispatch) {h : Http} (hl : h.Live) :
    (d.run h).http.Live ∨ (d.run h).http.connectionState = .disconnected := by
  by_cases ha : d.active.epollhup ∧ ¬ d.active.epollin
  · rw [d.run_hup h ha]
    exact Or.inl (hl.start d)
  · rw [d.run_eq h ha]
    exact handleCurrentConn_live ((d.beforeConn_live hl).imp_right (·.closed))

theorem session_live {s : Session} (h : sessions.Reachable s) :
    s.http.Live ∨ s.http.connectionState = .disconnected := by
  refine h.invariant (I := fun s => s.http.Live ∨ s.http.connectionState = .disconnected) ?_ ?_
  · rintro s rfl
    exact Or.inl ⟨rfl, by simp [Session.opened, Http.construct], Or.inl rfl⟩
  · rintro s d t - hl ⟨hopen, -, rfl⟩
    exact d.run_live (hl.resolve_right hopen)

/-! ## A connection that is watched -/

/-- What is seen of a session: an event, and what the callbacks do for it. -/
def Session.watched (t : Session) (d : Dispatch) : Option (Dispatch × List Effect) :=
  some (d, (d.run t.http).trace)

/-- What is seen of a session are its events and its log. -/
theorem session_of_watched {seen : List (Dispatch × List Effect)} {t : Session}
    (h : sessions.Observed Session.watched seen t) :
    sessions.Labelled (seen.map Prod.fst) t ∧ t.log = (seen.map Prod.snd).flatten := by
  induction h with
  | init hi =>
    obtain rfl := hi
    exact ⟨.init rfl, rfl⟩
  | @step seen t t' d hrun hstep ih =>
    obtain ⟨hlabelled, hlog⟩ := ih
    rw [Session.watched, Option.toList_some, List.map_append, List.map_append, List.flatten_append]
    refine ⟨hlabelled.step hstep, ?_⟩
    rw [hstep.2.2, ← hlog]
    simp [Session.dispatch]

end FlashWeb
