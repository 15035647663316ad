import FlashWeb.Properties.Replies

/-!
# The pace of the peer

How much a peer takes of what is written, and when, decides what is queued and which events come.
It decides nothing else as long as the connection is open in both directions and no `write` fails:
two connections that are told the same, and whose peers take what is written at different paces,
stay in step (`InStep`), in what they read, in what they answer and in all the bytes they answer it
with. So a slow client gets what a prompt one gets.
-/

namespace FlashWeb

open Lib

/-! ## The fields of the output -/

/-- Parsing a request line keeps what is queued. -/
theorem parseUri_frame (h : Http) : (parseUri h).2.writeBuffer = h.writeBuffer ∧
    (parseUri h).2.hasError = h.hasError := by
  rcases parseUri_cases h with ⟨-, heq⟩ | ⟨line, rest, -, -, heq⟩
  · rw [heq]
    exact ⟨rfl, rfl⟩
  · rw [heq]
    rcases parseHeaderLine_spec line with ⟨m, path, v, hline⟩ | ⟨m, path, hline⟩
    · rw [hline]
      exact ⟨rfl, rfl⟩
    · rw [hline]
      exact ⟨rfl, rfl⟩

/-! ## Two connections in step -/

/-- Two connections that differ in what is queued, and in what was taken so far. -/
structure Twins (c c' : Conn) : Prop where
  http : ∃ queue events, c'.http = c.http.withQueue queue events
  reads : c'.reads = c.reads
  requests : requestsOf c'.trace = requestsOf c.trace

/--
The bytes sent, `sent` and `sent'` before, and those queued are the same together, unless an error
occurred.
-/
structure InStep (sent sent' : Bytes) (c c' : Conn) : Prop extends Twins c c' where
  output : c.http.hasError = false → WriteResult.failed ∉ c.writes ∧
    WriteResult.failed ∉ c'.writes ∧ sent ++ c.output = sent' ++ c'.output

/-- A step that two connections make together. -/
def KeepsStep (f : Conn → Conn) : Prop :=
  ∀ sent sent' c c', InStep sent sent' c c' → InStep sent sent' (f c) (f c')

section

variable {sent sent' : Bytes} {c c' : Conn}

theorem Twins.hasError (h : Twins c c') : c'.http.hasError = c.http.hasError := by
  obtain ⟨queue, events, hh⟩ := h.http
  rw [hh]
  rfl

theorem Twins.processState (h : Twins c c') : c'.http.processState = c.http.processState := by
  obtain ⟨queue, events, hh⟩ := h.http
  rw [hh]
  rfl

theorem Twins.readBuffer (h : Twins c c') : c'.http.readBuffer = c.http.readBuffer := by
  obtain ⟨queue, events, hh⟩ := h.http
  rw [hh]
  rfl

theorem Twins.connectionState (h : Twins c c') :
    c'.http.connectionState = c.http.connectionState := by
  obtain ⟨queue, events, hh⟩ := h.http
  rw [hh]
  rfl

/-- Behind an error nothing more is asked of the output. -/
theorem Twins.badRequest (h : Twins c c') : InStep sent sent' (badRequest c) (badRequest c') := by
  obtain ⟨queue, events, hh⟩ := h.http
  refine ⟨⟨⟨queue, events, ?_⟩, h.reads, ?_⟩, fun he => ?_⟩
  · simp only [FlashWeb.badRequest, handleError, Conn.emit_http, hh]
    rfl
  · simp [FlashWeb.badRequest, handleError, Effect.processed, h.requests]
  · simp [FlashWeb.badRequest, handleError] at he

/-- Other fields than those of the output are changed in the same way. -/
theorem InStep.withHttp (h : InStep sent sent' c c') {queue : Bytes} {events : EventMask}
    (hh : c'.http = c.http.withQueue queue events) {p : Http}
    (hw : p.writeBuffer = c.http.writeBuffer) (he : p.hasError = c.http.hasError)
    (rs : List ReadResult) :
    InStep sent sent' { c with http := p, reads := rs }
      { c' with http := p.withQueue queue events, reads := rs } := by
  refine ⟨⟨⟨queue, events, rfl⟩, rfl, h.requests⟩, fun hp => ?_⟩
  obtain ⟨h1, h2, hout⟩ := h.output (he ▸ hp)
  refine ⟨h1, h2, ?_⟩
  have hqueue : c'.http.writeBuffer = queue := by
    rw [hh]
    rfl
  rw [Conn.output, Conn.output, hqueue, ← hw] at hout
  exact hout

/-- The same when nothing is read. -/
theorem InStep.withParsed (h : InStep sent sent' c c') {queue : Bytes} {events : EventMask}
    (hh : c'.http = c.http.withQueue queue events) {q : Http}
    (hw : q.writeBuffer = c.http.writeBuffer) (he : q.hasError = c.http.hasError) :
    InStep sent sent' { c with http := q } { c' with http := q.withQueue queue events } := by
  have hq := h.withHttp hh hw he c.reads
  have hreads : ({ c' with http := q.withQueue queue events, reads := c.reads } : Conn) =
      { c' with http := q.withQueue queue events } := by rw [← h.reads]
  rwa [hreads] at hq

theorem InStep.emit (h : InStep sent sent' c c') {e : Effect} (hs : e.sent = []) :
    InStep sent sent' (c.emit e) (c'.emit e) := by
  refine ⟨⟨h.http, h.reads, ?_⟩, fun he => ?_⟩
  · rw [Conn.emit_trace, Conn.emit_trace, requestsOf_append, requestsOf_append, h.requests]
  · obtain ⟨h1, h2, hout⟩ := h.output he
    refine ⟨h1, h2, ?_⟩
    simpa [Conn.output, hs] using hout

end

theorem keepsStep_reset : KeepsStep reset := fun sent sent' c c' h => by
  obtain ⟨queue, events, hh⟩ := h.http
  have hp := h.withParsed hh (q := { c.http with
    filePath := [], processState := .stateParseUri, headerLineState := .hStart,
    headerKv := HeaderMap.empty }) rfl rfl
  unfold reset
  rw [hh]
  exact hp.emit rfl

theorem keepsStep_handleClose : KeepsStep handleClose := fun sent sent' c c' h => by
  obtain ⟨queue, events, hh⟩ := h.http
  have hp := h.withParsed hh (q := { c.http with connectionState := .disconnected }) rfl rfl
  unfold handleClose
  rw [hh]
  exact hp.emit rfl

/-! ## Writing -/

/-- `d` is `c` after some bytes were taken, and nothing else. -/
structure Writes (c d : Conn) : Prop where
  http : ∃ queue events, d.http = c.http.withQueue queue events
  reads : d.reads = c.reads
  requests : requestsOf d.trace = requestsOf c.trace
  writes : d.writes <:+ c.writes
  output : WriteResult.failed ∉ c.writes → d.output = c.output

/-- Each of two connections in step may write. -/
theorem InStep.write {sent sent' : Bytes} {c c' d d' : Conn} (h : InStep sent sent' c c')
    (hw : Writes c d) (hw' : Writes c' d') : InStep sent sent' d d' := by
  obtain ⟨queue, events, hh⟩ := h.http
  obtain ⟨queue₁, events₁, hd⟩ := hw.http
  obtain ⟨queue₂, events₂, hd'⟩ := hw'.http
  refine ⟨⟨⟨queue₂, events₂, ?_⟩, ?_, ?_⟩, fun he => ?_⟩
  · rw [hd', hd, hh]
    rfl
  · rw [hw'.reads, hw.reads, h.reads]
  · rw [hw'.requests, hw.requests, h.requests]
  · rw [hd] at he
    obtain ⟨h1, h2, hout⟩ := h.output he
    refine ⟨fun hm => h1 (hw.writes.subset hm), fun hm => h2 (hw'.writes.subset hm), ?_⟩
    rw [hw.output h1, hw'.output h2, hout]

theorem Writes.refl (c : Conn) : Writes c c :=
  ⟨⟨_, _, rfl⟩, rfl, rfl, List.suffix_rfl, fun _ => rfl⟩

theorem Writes.trans {c d e : Conn} (h : Writes c d) (h' : Writes d e) : Writes c e := by
  obtain ⟨queue, events, hh⟩ := h.http
  obtain ⟨queue', events', hh'⟩ := h'.http
  refine ⟨⟨queue', events', by rw [hh', hh]; rfl⟩, h'.reads.trans h.reads,
    h'.requests.trans h.requests, h'.writes.trans h.writes, fun hf => ?_⟩
  rw [h'.output fun hm => hf (h.writes.subset hm), h.output hf]

theorem writes_flush (c : Conn) : Writes c (flush c) where
  http := ⟨_, _, rfl⟩
  reads := rfl
  requests := by simp [flush, Effect.processed]
  writes := flush_writes c
  output hf := flush_keeps fun hb => hf hb.failed_mem

theorem writes_listen (c : Conn) (events : EventMask) : Writes c (c.listen events) :=
  ⟨⟨_, _, rfl⟩, rfl, rfl, List.suffix_rfl, fun _ => rfl⟩

theorem writes_emit (c : Conn) {e : Effect} (hs : e.sent = []) (hp : e.processed = none) :
    Writes c (c.emit e) where
  http := ⟨_, _, rfl⟩
  reads := rfl
  requests := by simp [hp]
  writes := List.suffix_rfl
  output _ := by simp [Conn.output, hs]

theorem writes_handleWrite (c : Conn) : Writes c (handleWrite c) := by
  unfold handleWrite
  split
  · have hflush := (writes_flush c).trans (writes_flush (flush c))
    dsimp only
    split
    · exact hflush.trans (writes_listen _ _)
    · exact hflush
  · exact .refl c

theorem writes_writeResponse (c : Conn) : Writes c (writeResponse c) := by
  unfold writeResponse
  split
  · exact writes_handleWrite c
  · exact .refl c

/-! ## Parsing and processing -/

section

variable (fs : FileSystem) (before : UInt8)

theorem keepsStep_reject : KeepsStep reject := fun _ _ _ _ h => (h.emit rfl).toTwins.badRequest

theorem keepsStep_stageProcess : KeepsStep (stageProcess fs) := fun sent sent' c c' h => by
  obtain ⟨queue, events, hh⟩ := h.http
  have hstate := h.processState
  have hmethod : c'.http.method = c.http.method := by rw [hh]; rfl
  have hpath : c'.http.filePath = c.http.filePath := by rw [hh]; rfl
  have hrequest : c'.http.request = c.http.request := by rw [hh]; rfl
  unfold stageProcess
  rw [hstate]
  split
  · by_cases hm : c.http.method = some .methodPost
    · have hnone : ∀ {c : Conn}, c.http.method = some .methodPost →
          processRequest fs c = (none, c) := fun hm => if_pos hm
      rw [hnone hm, hnone (hmethod.trans hm)]
      exact h
    · have hm' : c'.http.method ≠ some .methodPost := hmethod ▸ hm
      cases hfile : fs.file (cStr c.http.filePath) with
      | some data =>
        rw [processRequest_served hm hfile, processRequest_served hm' (hpath ▸ hfile)]
        dsimp only
        refine ⟨⟨⟨queue ++ okResponse c.http.request data, events, ?_⟩, h.reads, ?_⟩, fun he => ?_⟩
        · simp only [Conn.enter, Conn.emit_http, hh]
          rfl
        · simp [Conn.enter, Effect.processed, h.requests, hrequest]
        · obtain ⟨h1, h2, hout⟩ := h.output he
          refine ⟨h1, h2, ?_⟩
          have happ := congrArg (· ++ okResponse c.http.request data) hout
          simpa [Conn.output, Conn.enter, Effect.sent, hrequest] using happ
      | none =>
        rw [processRequest_refused hm hfile, processRequest_refused hm' (hpath ▸ hfile)]
        dsimp only
        refine Twins.badRequest ⟨⟨fs.leftover c.http.request queue, events, ?_⟩, h.reads, ?_⟩
        · simp only [handleError, Conn.emit_http, hh]
          rfl
        · simp [handleError, Effect.processed, h.requests, hrequest]
  · exact h

theorem keepsStep_stageHeader : KeepsStep (stageHeader fs before) := fun sent sent' c c' h => by
  obtain ⟨queue, events, hh⟩ := h.http
  obtain ⟨buf, st, kv, -, hfr⟩ := parseHeaders_frame before c.http
  unfold stageHeader
  rw [h.processState]
  split
  · rw [hh, parseHeaders_withQueue]
    cases hp : parseHeaders before c.http with
    | mk verdict p =>
      rw [hp] at hfr
      have hw : p.writeBuffer = c.http.writeBuffer := by rw [show p = _ from hfr]
      have he : p.hasError = c.http.hasError := by rw [show p = _ from hfr]
      have hstep : ∀ q : Http, q.writeBuffer = p.writeBuffer → q.hasError = p.hasError →
          InStep sent sent' { c with http := q } { c' with http := q.withQueue queue events } :=
        fun q hqw hqe => h.withParsed hh (hqw.trans hw) (hqe.trans he)
      cases verdict with
      | parseHeaderAgain => exact hstep p rfl rfl
      | parseHeaderError => exact keepsStep_reject _ _ _ _ (hstep p rfl rfl)
      | parseHeaderSuccess =>
        have hmethod : (p.withQueue queue events).method = p.method := rfl
        dsimp only
        rw [hmethod]
        cases p.method with
        | none => exact keepsStep_stageProcess fs _ _ _ _ (hstep p rfl rfl)
        | some m =>
          cases m with
          | methodPost => exact keepsStep_stageProcess fs _ _ _ _ (hstep { p with
              processState := .stateParseBody } rfl rfl)
          | methodGet => exact keepsStep_stageProcess fs _ _ _ _ (hstep { p with
              processState := .stateProcess } rfl rfl)
  · exact keepsStep_stageProcess fs _ _ _ _ h

theorem keepsStep_stageUri : KeepsStep (stageUri fs before) := fun sent sent' c c' h => by
  obtain ⟨queue, events, hh⟩ := h.http
  obtain ⟨hw, he⟩ := parseUri_frame c.http
  unfold stageUri
  rw [h.processState]
  split
  · rw [hh, parseUri_withQueue]
    cases hp : parseUri c.http with
    | mk verdict p =>
      rw [hp] at hw he
      have hstep : ∀ q : Http, q.writeBuffer = p.writeBuffer → q.hasError = p.hasError →
          InStep sent sent' { c with http := q } { c' with http := q.withQueue queue events } :=
        fun q hqw hqe => h.withParsed hh (hqw.trans hw) (hqe.trans he)
      cases verdict with
      | parseUriAgain => exact hstep p rfl rfl
      | parseUriError => exact keepsStep_reject _ _ _ _ (hstep p rfl rfl)
      | parseUriSuccess => exact keepsStep_stageHeader fs before _ _ _ _ (hstep { p with
          processState := .stateParseHeader } rfl rfl)
  · exact keepsStep_stageHeader fs before _ _ _ _ h

theorem keepsStep_readAndParse : KeepsStep (readAndParse fs before) := fun sent sent' c c' h => by
  obtain ⟨queue, events, hh⟩ := h.http
  have hread : ∀ p : Http, p.writeBuffer = c.http.writeBuffer → p.hasError = c.http.hasError →
      InStep sent sent'
        { c with http := p, reads := (readFromFd c.reads c.http.readBuffer).reads }
        { c' with
          http := p.withQueue queue events
          reads := (readFromFd c.reads c.http.readBuffer).reads } :=
    fun p hw he => h.withHttp hh hw he _
  unfold readAndParse
  dsimp only
  rw [h.connectionState, h.readBuffer, h.reads, hh]
  split
  · exact hread { c.http with readBuffer := [] } rfl rfl
  · split
    · exact keepsStep_reject _ _ _ _ (hread { c.http with
        readBuffer := (readFromFd c.reads c.http.readBuffer).inBuffer } rfl rfl)
    · have heof := hread { c.http with
        readBuffer := (readFromFd c.reads c.http.readBuffer).inBuffer
        connectionState := .disconnecting } rfl rfl
      split
      · split
        · exact heof
        · exact keepsStep_stageUri fs before _ _ _ _ heof
      · exact keepsStep_stageUri fs before _ _ _ _ (hread { c.http with
          readBuffer := (readFromFd c.reads c.http.readBuffer).inBuffer } rfl rfl)

/-! ## The callbacks -/

theorem keepsStep_handleReadBody {again : Conn → Conn} (hagain : KeepsStep again) :
    KeepsStep (handleReadBody fs before again) := fun sent sent' c c' h => by
  have h1 := keepsStep_readAndParse fs before _ _ _ _ h
  have h2 := h1.write (writes_writeResponse _) (writes_writeResponse _)
  have h3 := keepsStep_reset _ _ _ _ h2
  unfold handleReadBody
  dsimp only
  rw [h1.hasError, h2.hasError, h2.processState, h2.connectionState, h3.readBuffer,
    h3.connectionState]
  split
  · split
    · split
      · exact hagain _ _ _ _ h3
      · exact h3
    · split
      · exact h2.write (writes_listen _ _) (writes_listen _ _)
      · exact h2
  · exact keepsStep_handleClose _ _ _ _ h1

theorem keepsStep_handleRead : KeepsStep (handleRead fs before) := fun sent sent' c c' h => by
  have hfuel : ∀ n, KeepsStep (handleReadFuel fs before n) := by
    intro n
    induction n with
    | zero => exact fun _ _ _ _ h => h
    | succ n ih => exact keepsStep_handleReadBody fs before ih
  have hpending : c'.pending = c.pending := by
    rw [Conn.pending, Conn.pending, h.readBuffer, h.reads]
  unfold handleRead
  rw [hpending]
  exact hfuel _ _ _ _ _ h

end

/-- On an open keep-alive connection `HandleCurrentConn` changes the mask. -/
theorem writes_handleCurrentConn {c : Conn} (he : c.http.hasError = false)
    (hc : c.http.connectionState = .connected) (hk : c.http.keepAlive = true) :
    Writes c (handleCurrentConn c) := by
  have htimer := writes_emit c (e := .seperateTimer) rfl rfl
  have hout := handleCurrentConn_concludes c
  generalize handleCurrentConn c = out at hout
  cases hout with
  | busy => exact (htimer.trans (writes_listen _ _)).trans (writes_emit _ rfl rfl)
  | idle => exact (htimer.trans (writes_listen _ _)).trans (writes_emit _ rfl rfl)
  | finished _ _ _ hk' => simp [hk] at hk'
  | draining _ hd => simp [hc] at hd
  | drained _ hd => simp [hc] at hd
  | gone hg => simp [he, hc] at hg

/-! ## One event -/

/-- Two events that differ in what the peer takes of what is written. No `write` fails. -/
structure Dispatch.Paced (d' d : Dispatch) : Prop where
  active : d'.active = d.active
  reads : d'.reads = d.reads
  fs : d'.fs = d.fs
  before : d'.before = d.before
  writes : WriteResult.failed ∉ d.writes
  writes' : WriteResult.failed ∉ d'.writes

/-- A connection on which one direction is closed stays so. -/
theorem preserved_halfClosed (fs : FileSystem) :
    PreservedByRead fs fun c => c.http.connectionState ≠ .connected where
  parsed c p rs h _ hf := by
    rcases hf.connectionState with hst | hst
    · exact fun hc => h (hst.symm.trans hc)
    · exact fun hc => by simp [Conn.parsed, hst] at hc
  flush _ h _ _ := h
  listen _ _ h := h
  served _ _ h _ _ _ := h
  reset _ h _ _ := h
  malformed _ _ _ := by simp [Conn.failWith, handleClose]
  refused _ _ _ _ _ := by simp [Conn.failWith, handleClose]

/-- `HandleCurrentConn` opens nothing. -/
theorem handleCurrentConn_connected {c : Conn}
    (h : (handleCurrentConn c).http.connectionState = .connected) :
    c.http.connectionState = .connected := by
  have hout := handleCurrentConn_concludes c
  generalize handleCurrentConn c = out at hout h
  cases hout with
  | busy => exact h
  | idle => exact h
  | finished => simp [handleClose] at h
  | draining => exact h
  | drained => simp [handleClose] at h
  | gone => exact h

/-- What is open behind an event was open before it. -/
theorem Dispatch.run_connected {d : Dispatch} {h : Http} (hl : h.Live)
    (hc : (d.run h).http.connectionState = .connected) : h.connectionState = .connected := by
  by_cases ha : d.active.epollhup ∧ ¬ d.active.epollin
  · rw [d.run_hup h ha] at hc
    exact hc
  · rw [d.run_eq h ha] at hc
    by_contra hclosed
    exact (preserved_halfClosed d.fs).beforeConn hl hclosed (handleCurrentConn_connected hc)

section

variable {sent sent' : Bytes} {d d' : Dispatch} {h h' : Http}

/-- The callbacks begin in step. -/
theorem Dispatch.Paced.start (hd : d'.Paced d)
    (hh : ∃ queue events, h' = h.withQueue queue events)
    (hs : sent ++ h.writeBuffer = sent' ++ h'.writeBuffer) :
    InStep sent sent' (d.start h) (d'.start h') := by
  obtain ⟨queue, events, rfl⟩ := hh
  exact ⟨⟨⟨queue, EventMask.zero, rfl⟩, hd.reads, rfl⟩, fun _ => ⟨hd.writes, hd.writes', hs⟩⟩

theorem Dispatch.Paced.beforeConn (hd : d'.Paced d)
    (h0 : InStep sent sent' (d.start h) (d'.start h')) :
    InStep sent sent' (d.beforeConn h) (d'.beforeConn h') := by
  have hread : InStep sent sent' (d.beforeRead h) (d'.beforeRead h') := by
    unfold Dispatch.beforeRead
    rw [hd.active]
    split
    · exact h0.write (writes_handleWrite _) (writes_handleWrite _)
    · exact h0
  unfold Dispatch.beforeConn
  rw [hd.active, hd.fs, hd.before]
  split
  · exact keepsStep_handleRead d.fs d.before _ _ _ _ hread
  · exact hread

/-- **An event that leaves one of two connections open keeps them in step.** -/
theorem Dispatch.Paced.run (hd : d'.Paced d) (hl : h.Live) (hk : h.keepAlive = true)
    (hh : ∃ queue events, h' = h.withQueue queue events)
    (hs : sent ++ h.writeBuffer = sent' ++ h'.writeBuffer)
    (hc : (d.run h).http.connectionState = .connected ∨
      (d'.run h').http.connectionState = .connected) :
    InStep sent sent' (d.run h) (d'.run h') ∧ (d.run h).http.connectionState = .connected := by
  have h0 := hd.start hh hs
  by_cases ha : d.active.epollhup ∧ ¬ d.active.epollin
  · rw [d.run_hup h ha] at hc ⊢
    rw [d'.run_hup h' (hd.active ▸ ha)] at hc ⊢
    exact ⟨h0, hc.elim id fun hc' => h0.connectionState.symm.trans hc'⟩
  · rw [d.run_eq h ha] at hc ⊢
    rw [d'.run_eq h' (hd.active ▸ ha)] at hc ⊢
    have hconn := hd.beforeConn h0
    have hopen : (d.beforeConn h).http.connectionState = .connected := hc.elim
      handleCurrentConn_connected
      fun hc' => hconn.connectionState.symm.trans (handleCurrentConn_connected hc')
    have hlive : (d.beforeConn h).http.Live := (d.beforeConn_live hl).resolve_right fun hf => by
      simp [hf.closed] at hopen
    have hkeep := (preserved_keepAlive d.fs).beforeConn (d := d) hl hk
    have hkeep' : (d'.beforeConn h').http.keepAlive = true := by
      obtain ⟨queue, events, hh'⟩ := hconn.http
      rw [hh']
      exact hkeep
    have hw := writes_handleCurrentConn hlive.noError hopen hkeep
    have hw' := writes_handleCurrentConn (hconn.hasError.trans hlive.noError)
      (hconn.connectionState.trans hopen) hkeep'
    refine ⟨hconn.write hw hw', ?_⟩
    obtain ⟨queue, events, hout⟩ := hw.http
    rw [hout]
    exact hopen

end

/-! ## Runs -/

/-- Two sessions that were told the same. -/
structure Session.InStep (s s' : Session) : Prop where
  http : ∃ queue events, s'.http = s.http.withQueue queue events
  requests : requestsOf s'.log = requestsOf s.log
  output : bytesSent s.log ++ s.http.writeBuffer = bytesSent s'.log ++ s'.http.writeBuffer

/-- The step lemma. -/
theorem Session.InStep.dispatch {s s' : Session} {d d' : Dispatch} (h : s.InStep s')
    (hd : d'.Paced d) (hl : s.http.Live) (hk : s.http.keepAlive = true)
    (hc : (s.dispatch d).http.connectionState = .connected ∨
      (s'.dispatch d').http.connectionState = .connected) :
    (s.dispatch d).InStep (s'.dispatch d') ∧
      (s.dispatch d).http.connectionState = .connected := by
  obtain ⟨hrun, hopen⟩ := hd.run hl hk h.http h.output hc
  have hlive := (d.run_live hl).resolve_right fun hclosed => by simp [hclosed] at hopen
  obtain ⟨-, -, hout⟩ := hrun.output hlive.noError
  refine ⟨⟨hrun.http, ?_, ?_⟩, hopen⟩
  · show requestsOf (s'.log ++ _) = requestsOf (s.log ++ _)
    rw [requestsOf_append, requestsOf_append, h.requests, hrun.requests]
  · show bytesSent (s.log ++ _) ++ _ = bytesSent (s'.log ++ _) ++ _
    rw [bytesSent_append, bytesSent_append, List.append_assoc, List.append_assoc]
    exact hout

/-- **A session that is open is in step with any other that was told the same.** -/
theorem session_inStep {ds : List Dispatch} {t : Session} (h : sessions.Labelled ds t) :
    ∀ {ds' : List Dispatch}, List.Forall₂ Dispatch.Paced ds' ds →
      t.http.connectionState = .connected →
      t.InStep (ds'.foldl Session.dispatch (Session.opened true)) := by
  induction h with
  | init hi =>
    intro ds' hds _
    obtain rfl := hi
    cases hds
    exact ⟨⟨_, _, rfl⟩, rfl, rfl⟩
  | @step ds t t' d hrun hstep ih =>
    intro ds' hds hc
    obtain ⟨hopen, -, rfl⟩ := hstep
    have hlive := (session_live hrun.reachable).resolve_right hopen
    have hinit := List.forall₂_take_append _ _ _ hds
    have hlast := List.forall₂_drop_append _ _ _ hds
    rw [← List.take_append_drop ds.length ds', List.foldl_append]
    generalize ds'.take ds.length = front at hinit ⊢
    generalize ds'.drop ds.length = back at hlast ⊢
    cases hlast with
    | cons hd hnil =>
      cases hnil
      have hin := ih hinit (d.run_connected hlive hc)
      exact (hin.dispatch hd hlive (session_keepAlive hrun.reachable) (Or.inl hc)).1

/-- The peer takes one byte at a time. -/
def slowWrites : List WriteResult := [.wrote 1, .eagain, .eagain]

theorem slowWrites_ok : WriteResult.failed ∉ slowWrites := by decide

/-- A request arrives, and the first byte of the response is taken. -/
def slowEvent : Dispatch := { agentEvent with writes := slowWrites }

namespace Server

variable {wakeupFd : Nat → Fd} {threadNum : Nat} {s : Server} {k : Nat} {id : HttpId}

/--
**The pace of the peer does not show.** In every run of the server, as long as no `write` on a
connection fails and it is open in both directions, it is where a session is whose peer was told
the same and took what was written at any other pace: the same requests were processed, the bytes
handed to `write` and those still queued are the same together, and the connection differs in
nothing but its queue and its mask.
-/
theorem pace_hidden {seen : List (Dispatch × List Effect)}
    (h : (servers wakeupFd threadNum).Observed (handled k id) seen s) (hk : k < s.started)
    (hr : (s.threads k).loop.Registered id)
    (hc : ((s.threads k).loop.http id).connectionState = .connected) {ds' : List Dispatch}
    (hd : List.Forall₂ Dispatch.Paced ds' (seen.map Prod.fst)) :
    let log := (seen.map Prod.snd).flatten
    let t' := ds'.foldl Session.dispatch (Session.opened true)
    requestsOf t'.log = requestsOf log ∧
      bytesSent log ++ ((s.threads k).loop.http id).writeBuffer =
        bytesSent t'.log ++ t'.http.writeBuffer ∧
      ∃ queue events, t'.http = ((s.threads k).loop.http id).withQueue queue events := by
  obtain ⟨t, ht, hm, hlog⟩ := EventLoop.log_of_handled ((worker_observed h).1 hk)
  have hhttp := hm.http hr
  rw [hhttp] at hc ⊢
  have hin := session_inStep ht hd hc
  rw [← hlog]
  exact ⟨hin.requests, hin.output, hin.http⟩

/-- The peer takes one byte of the response. -/
theorem pace_hidden_slowEvent :
    ∃ seen u, (servers (fun _ => 3) 1).Observed (handled 0 0) seen u ∧
      seen.map Prod.fst = [slowEvent] ∧
      bytesSent (seen.map Prod.snd).flatten ++ ((u.threads 0).loop.http 0).writeBuffer =
        bytesSent ([agentEvent].foldl Session.dispatch (Session.opened true)).log ++
          ([agentEvent].foldl Session.dispatch (Session.opened true)).http.writeBuffer := by
  obtain ⟨seen, u, hrun, hstarted, hseen, hloop⟩ := welcome_begin slowEvent (by decide)
  have hpaced : List.Forall₂ Dispatch.Paced [agentEvent] (seen.map Prod.fst) :=
    hseen ▸ .cons ⟨rfl, rfl, rfl, rfl, slowWrites_ok, List.not_mem_nil⟩ .nil
  have hregistered : (u.threads 0).loop.Registered 0 := hloop ▸ rfl
  have hconnected : ((u.threads 0).loop.http 0).connectionState = .connected := by
    rw [hloop]
    decide
  exact ⟨seen, u, hrun, hseen, (pace_hidden hrun hstarted hregistered hconnected hpaced).2.1⟩

end Server

end FlashWeb
