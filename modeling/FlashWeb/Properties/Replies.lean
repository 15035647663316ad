import FlashWeb.Properties.Clients
import FlashWeb.Properties.Output

/-!
# What a connection sends can be read back

A client knows a response and a page of `HandleError` by the same fields, so it can take either off
the front of a stream. What the callbacks of a connection hand to `write` is a stream of these,
whatever the bytes are that come in: as long as no `write` fails and no page is written
(`Accounted`) the bytes handed over and those still queued are the responses so far, and when the
peer takes everything (`HandedOver`) the pages of the event that ends in an error come behind them.
-/

namespace FlashWeb

open Lib

/-! ## A page is read like a response -/

/-- **Behind any lines that are no `Content-Length` the reader finds the body.** -/
theorem nextResponse_lines {l l' data : Bytes} {front : List Bytes} (hl : CR ∉ l)
    (hfront : ∀ m ∈ front, PlainLine m ∧ ¬ text "Content-Length: " <+: m) (hl' : PlainLine l')
    (rest : Bytes) :
    nextResponse (joinLines l (front ++ (text "Content-Length: " ++ toDecimal data.length) :: [l'])
      ++ (CRLFCRLF ++ (data ++ rest))) = some (data, rest) := by
  have hlines : ∀ m ∈ front ++ (text "Content-Length: " ++ toDecimal data.length) :: [l'],
      PlainLine m := by
    intro m hm
    rw [List.mem_append, List.mem_pair] at hm
    rcases hm with hm | rfl | rfl
    · exact (hfront m hm).1
    · exact plainLine_field (by decide) (cr_notMem_toDecimal _)
    · exact hl'
  have hend := findSub_header_end (data ++ rest) hl hlines
  have hfield : fieldValue (text "Content-Length: ") (joinLines l
      (front ++ (text "Content-Length: " ++ toDecimal data.length) :: [l'])) =
      some (toDecimal data.length) :=
    fieldValue_joinLines (by decide) (cr_notMem_toDecimal _) hl
      fun m hm => ⟨(hfront m hm).1.2, (hfront m hm).2⟩
  generalize joinLines l _ = head at hend hfield ⊢
  have hbody : (head ++ (CRLFCRLF ++ (data ++ rest))).drop (head.length + 4) = data ++ rest := by
    rw [← List.append_assoc, List.drop_left' (by simp [CRLFCRLF])]
  simp only [nextResponse, hend, List.take_left' rfl, hfield, fromDecimal_toDecimal, hbody,
    Option.bind_eq_bind, Option.bind_some]
  rw [if_pos (by simp), List.drop_left' rfl]

/-- The lines of a page in front of `Content-Length`, behind the first. -/
def pageLines : List Bytes := [text "Content-Type: text/html", text "Connection: Close"]

theorem pageLines_spec : ∀ m ∈ pageLines, PlainLine m ∧ ¬ text "Content-Length: " <+: m := by
  decide

/-- The first line of a page. -/
def pageText (errCode : Nat) (errMsg : Bytes) : Bytes :=
  text "HTTP/1.1 " ++ toDecimal errCode ++ (text " " ++ errMsg)

theorem cr_notMem_pageText (errCode : Nat) {errMsg : Bytes} (h : CR ∉ errMsg) :
    CR ∉ pageText errCode errMsg := by
  have hversion : CR ∉ text "HTTP/1.1 " := by decide
  have hspace : CR ∉ text " " := by decide
  simp only [pageText, List.mem_append, not_or]
  exact ⟨⟨hversion, cr_notMem_toDecimal _⟩, hspace, h⟩

/-- **A page is lines, an empty line and the body.** -/
theorem errorPage_lines (errCode : Nat) (errMsg : Bytes) :
    errorPage errCode errMsg = joinLines (pageText errCode errMsg) (pageLines ++
      (text "Content-Length: " ++ toDecimal (errorBody errCode errMsg).length) ::
        [text "Server: Flash Web Server"]) ++ (CRLFCRLF ++ errorBody errCode errMsg) := by
  have hend : text "\r\n" = [CR, LF] := rfl
  have htype : text "Content-Type: text/html\r\n" = text "Content-Type: text/html" ++ [CR, LF] :=
    rfl
  have hclose : text "Connection: Close\r\n" = text "Connection: Close" ++ [CR, LF] := rfl
  have hserver : text "Server: Flash Web Server\r\n" =
      text "Server: Flash Web Server" ++ [CR, LF] := rfl
  rw [errorPage, errorHeader, pageText, pageLines, hend, htype, hclose, hserver, CRLFCRLF]
  simp [joinLines]

/-- **The reader takes one page off the front of the stream.** -/
theorem nextResponse_errorPage (errCode : Nat) {errMsg : Bytes} (h : CR ∉ errMsg) (rest : Bytes) :
    nextResponse (errorPage errCode errMsg ++ rest) = some (errorBody errCode errMsg, rest) := by
  rw [errorPage_lines, List.append_assoc, List.append_assoc]
  exact nextResponse_lines (cr_notMem_pageText _ h) pageLines_spec (by decide) rest

theorem badRequest_line : CR ∉ text "Bad Request" := by decide

theorem notFound_line : CR ∉ text "Not Found!" := by decide

/-! ## Replies -/

/-- What a client is sent. -/
inductive Reply where
  /-- the response to `r` with the bytes of its file -/
  | file (r : Request) (data : Bytes)
  /-- a page of `HandleError`, whose message is on one line -/
  | page (errCode : Nat) (errMsg : Bytes) (line : CR ∉ errMsg)

/-- The bytes of a reply. -/
def Reply.bytes : Reply → Bytes
  | .file r data => okResponse r data
  | .page errCode errMsg _ => errorPage errCode errMsg

/-- What a client reads. -/
def Reply.body : Reply → Bytes
  | .file _ data => data
  | .page errCode errMsg _ => errorBody errCode errMsg

/-- Replies as a way of writing bodies into a stream. -/
def replyFraming : Framing UInt8 Reply Bytes where
  encode := Reply.bytes
  content := Reply.body
  next := nextResponse
  encode_ne_nil
    | .file r data => by
      rw [Reply.bytes, okResponse_lines]
      simp [CRLFCRLF]
    | .page errCode errMsg _ => by
      rw [Reply.bytes, errorPage_lines]
      simp [CRLFCRLF]
  next_encode
    | .file r data, rest => nextResponse_okResponse r data rest
    | .page errCode _ h, rest => nextResponse_errorPage errCode h rest

/-- The reply that an effect makes, with the files as they are in `fs`. -/
def Effect.reply (fs : FileSystem) : Effect → Option Reply
  | .process r true => (fs.file (cStr r.filePath)).map (Reply.file r)
  | .page errCode errMsg _ _ _ => if h : CR ∉ errMsg then some (.page errCode errMsg h) else none
  | _ => none

/-- The replies made, in order. -/
def repliesOf (fs : FileSystem) (trace : List Effect) : List Reply :=
  trace.filterMap (Effect.reply fs)

/-- The bytes of the replies made. -/
def replyBytes (fs : FileSystem) (trace : List Effect) : Bytes :=
  (repliesOf fs trace).flatMap Reply.bytes

@[simp] theorem replyBytes_nil (fs : FileSystem) : replyBytes fs [] = [] := rfl

@[simp] theorem replyBytes_append (fs : FileSystem) (t u : List Effect) :
    replyBytes fs (t ++ u) = replyBytes fs t ++ replyBytes fs u := by
  simp [replyBytes, repliesOf, List.filterMap_append]

/-- An effect that makes no reply. -/
theorem replyBytes_emit {fs : FileSystem} {e : Effect} (h : e.reply fs = none) (t : List Effect) :
    replyBytes fs (t ++ [e]) = replyBytes fs t := by
  simp [replyBytes, repliesOf, h]

theorem replyBytes_flush (fs : FileSystem) (c : Conn) :
    replyBytes fs (flush c).trace = replyBytes fs c.trace := replyBytes_emit rfl _

/-! ## Writes that do not fail -/

/-- The loop takes results off the front. -/
theorem writeLoop_writes : ∀ (ws : List WriteResult) (ptr sent : Bytes),
    (writeLoop ws ptr sent).writes <:+ ws
  | [], _, _ => List.suffix_rfl
  | w :: ws, ptr, sent => by
    unfold writeLoop
    split
    · exact List.suffix_rfl
    · cases w with
      | eintr => exact (writeLoop_writes ws ptr sent).trans (List.suffix_cons _ _)
      | eagain => exact List.suffix_cons _ _
      | failed => exact List.suffix_cons _ _
      | wrote k =>
        dsimp only
        split
        · exact List.suffix_cons _ _
        · exact (writeLoop_writes ws _ _).trans (List.suffix_cons _ _)

theorem flush_writes (c : Conn) : (flush c).writes <:+ c.writes := by
  have hloop := writeLoop_writes c.writes c.http.writeBuffer []
  show (writeToFd c.writes c.http.writeBuffer).writes <:+ _
  unfold writeToFd
  dsimp only
  split <;> exact hloop

/-! ## The bytes of an event -/

/-- Nothing was lost since the event began with `queued` in `write_buffer_`. -/
def Accounted (fs : FileSystem) (queued : Bytes) (c : Conn) : Prop :=
  c.http.hasError = false →
    WriteResult.failed ∉ c.writes ∧ c.output = queued ++ replyBytes fs c.trace

theorem Accounted.emit {fs : FileSystem} {queued : Bytes} {c : Conn} (h : Accounted fs queued c)
    {e : Effect} (hs : e.sent = []) (hr : e.reply fs = none) : Accounted fs queued (c.emit e) := by
  intro he
  obtain ⟨hw, hout⟩ := h he
  refine ⟨hw, ?_⟩
  rw [Conn.emit_trace, replyBytes_emit hr, ← hout]
  simp [Conn.output, hs]

theorem preserved_accounted (fs : FileSystem) (queued : Bytes) :
    Preserved fs (Accounted fs queued) where
  parsed c p rs h he hf _ := by
    obtain ⟨hw, hout⟩ := h he
    refine ⟨hw, ?_⟩
    rw [show (c.parsed p rs).output = c.output by
      show _ ++ p.writeBuffer = _
      rw [hf.writeBuffer]
      rfl]
    exact hout
  flush c h he _ _ := by
    obtain ⟨hw, hout⟩ := h he
    refine ⟨fun hm => hw ((flush_writes c).subset hm), ?_⟩
    rw [flush_keeps fun hb => hw hb.failed_mem, replyBytes_flush, hout]
  listen _ _ h := h
  served c data h he _ hd _ := by
    obtain ⟨hw, hout⟩ := h he
    refine ⟨hw, ?_⟩
    have hreply : (Effect.process c.http.request true).reply fs =
        some (.file c.http.request data) := by
      show (fs.file (cStr c.http.filePath)).map _ = _
      rw [hd]
      rfl
    rw [show (served c data).output = c.output ++ okResponse c.http.request data by
      simp [served, Conn.output, Effect.sent], hout, List.append_assoc]
    congr 1
    simp [served, replyBytes, repliesOf, hreply, Reply.bytes]
  reset c h _ _ := by
    have h' : Accounted fs queued { c with http := { c.http with
        filePath := [], processState := .stateParseUri, headerLineState := .hStart,
        headerKv := HeaderMap.empty } } := h
    exact h'.emit rfl rfl
  malformed _ _ _ he := by simp [Conn.failWith, handleClose, badRequest, handleError] at he
  refused _ _ _ _ _ he := by simp [Conn.failWith, handleClose, badRequest, handleError] at he
  seperateTimer _ h := h.emit rfl rfl
  update _ _ _ h _ _ := h.emit rfl rfl
  close c h _ := by
    have h' : Accounted fs queued { c with http := { c.http with
        connectionState := .disconnected } } := h
    exact h'.emit rfl rfl

/-! ## A peer that takes everything -/

/-- Everything that is to be sent was taken. -/
structure HandedOver (fs : FileSystem) (c : Conn) : Prop where
  sent : bytesSent c.trace = replyBytes fs c.trace
  taken : c.http.hasError = false → c.writes = [] ∧ c.http.writeBuffer = []

/-- With nothing queued what is accounted for is sent. -/
theorem Accounted.handedOver {fs : FileSystem} {c : Conn} (h : Accounted fs [] c)
    (he : c.http.hasError = false) (hw : c.writes = []) (hb : c.http.writeBuffer = []) :
    HandedOver fs c := by
  obtain ⟨-, hout⟩ := h he
  rw [Conn.output, hb, List.append_nil, List.nil_append] at hout
  exact ⟨hout, fun _ => ⟨hw, hb⟩⟩

theorem HandedOver.accounted {fs : FileSystem} {c : Conn} (h : HandedOver fs c) :
    Accounted fs [] c := by
  intro he
  obtain ⟨hw, hb⟩ := h.taken he
  refine ⟨hw ▸ List.not_mem_nil, ?_⟩
  rw [Conn.output, hb, List.append_nil, List.nil_append, h.sent]

theorem HandedOver.emit {fs : FileSystem} {c : Conn} (h : HandedOver fs c) {e : Effect}
    (hs : e.sent = []) (hr : e.reply fs = none) : HandedOver fs (c.emit e) where
  sent := by
    rw [Conn.emit_trace, replyBytes_emit hr, ← h.sent]
    simp [hs]
  taken := h.taken

theorem writeResponse_taken {c : Conn} (hl : c.http.hasError = false)
    (hopen : c.http.connectionState ≠ .disconnected) (hw : c.writes = []) :
    (writeResponse c).writes = [] ∧ (writeResponse c).http.writeBuffer = [] := by
  obtain ⟨t, ht, -⟩ := writeResponse_accepted hw hl hopen
  rw [ht]
  exact ⟨hw, rfl⟩

/-- A page that is taken whole. -/
theorem handleError_taken {c : Conn} (hw : c.writes = []) (errCode : Nat) {errMsg : Bytes}
    (hm : CR ∉ errMsg) (fs : FileSystem) (hs : bytesSent c.trace = replyBytes fs c.trace) :
    (handleError errCode errMsg c).writes = [] ∧
      bytesSent (handleError errCode errMsg c).trace =
        replyBytes fs (handleError errCode errMsg c).trace := by
  have hpage : handleError errCode errMsg c = c.emit (.page errCode errMsg c.http.writeBuffer
      (errorHeader errCode errMsg) (errorBody errCode errMsg)) := by
    simp [handleError, writeToFdRaw, writeLoopRaw, hw, Conn.emit]
  rw [hpage]
  refine ⟨hw, ?_⟩
  simp [hs, replyBytes, repliesOf, Effect.sent, Effect.reply, hm, Reply.bytes, errorPage]

theorem failWith_handedOver {c : Conn} (hw : c.writes = []) {fs : FileSystem}
    (hs : bytesSent c.trace = replyBytes fs c.trace) : HandedOver fs c.failWith := by
  obtain ⟨-, hpage⟩ := handleError_taken (c := { c with http := { c.http with hasError := true } })
    hw 400 badRequest_line fs hs
  refine ⟨?_, fun he => ?_⟩
  · rw [Conn.failWith, handleClose, Conn.emit_trace, replyBytes_emit rfl, bytesSent_append]
    rw [show bytesSent [.removeFromEpoller] = [] from rfl, List.append_nil]
    exact hpage
  · simp [Conn.failWith, handleClose, badRequest, handleError] at he

/-- **Whatever comes in, the peer has taken a reply for each that was made.** -/
theorem handleRead_handedOver (fs : FileSystem) (before : UInt8) {c : Conn} (hl : c.http.Live)
    (h : HandedOver fs c) : HandedOver fs (handleRead fs before c) := by
  have hI := (preserved_accounted fs []).toPreservedByRead
  have hrun := handleRead_run fs before c hl
  generalize handleRead fs before c = out at hrun
  -- an activation begins with nothing queued, so its response is sent alone
  have hanswered : ∀ {c : Conn} {p rs data}, c.http.Live → HandedOver fs c → ReadFrame c.http p →
      p.Ready → fs.file (cStr p.filePath) = some data →
      HandedOver fs (reset (writeResponse (served (c.parsed p rs) data))) := by
    intro c p rs data hl h hf hr hd
    have he : p.hasError = false := hf.hasError.trans hl.noError
    obtain ⟨hw, hb⟩ := writeResponse_taken (c := served (c.parsed p rs) data) he
      (hf.notClosed hl.notClosed) (h.taken hl.noError).1
    exact (hI.answered h.accounted hl.noError hf hr hd).handedOver
      ((writeResponse_finished (c.parsed p rs) data).noError.trans he) hw hb
  induction hrun with
  | @stop c out hs =>
    obtain ⟨hw, hb⟩ := h.taken hl.noError
    cases hs with
    | malformed p rs hf _ =>
      refine failWith_handedOver (c := (c.parsed p rs).emit .malformed) hw ?_
      rw [Conn.emit_trace, replyBytes_emit rfl]
      simpa [Conn.parsed, Effect.sent] using h.sent
    | refused p rs hf _ hr hd =>
      obtain ⟨hw', hpage⟩ := handleError_taken (c := { c.parsed p rs with http := { p with
          writeBuffer := fs.leftover p.request p.writeBuffer
          keepAlive := p.keptAlive p.headerKv } }) hw 404 notFound_line fs h.sent
      refine failWith_handedOver (c := refused fs (c.parsed p rs)) hw' ?_
      rw [refused, Conn.emit_trace, replyBytes_emit rfl, bytesSent_append]
      rw [show bytesSent [.process _ false] = [] from rfl, List.append_nil]
      exact hpage
    | waiting p rs hf _ =>
      have he : p.hasError = false := hf.hasError.trans hl.noError
      obtain ⟨hw', hb'⟩ := writeResponse_taken (c := c.parsed p rs) he
        (hf.notClosed hl.notClosed) hw
      have hacc := hI.writeResponse (hI.parsed c p rs h.accounted hl.noError hf)
      obtain ⟨wb, ev, hfr, -⟩ := writeResponse_frame (c.parsed p rs)
      exact Accounted.handedOver (hI.listen _ _ hacc) (by rw [Conn.listen, hfr]; exact he) hw' hb'
    | last p rs data hf _ hr hd _ => exact hanswered hl h hf hr hd
  | @next c c' out hg _ ih =>
    have hl' := hg.live fs hl
    obtain ⟨p, rs, data, hf, -, hr, hd, -, -⟩ := hg
    exact ih hl' (hanswered hl h hf hr hd)

theorem handleCurrentConn_handedOver {fs : FileSystem} {c : Conn} (h : HandedOver fs c) :
    HandedOver fs (handleCurrentConn c) := by
  have hlisten : ∀ {c : Conn} ev, HandedOver fs c → HandedOver fs (c.listen ev) :=
    fun _ h => ⟨h.sent, h.taken⟩
  have hclose : ∀ {c : Conn}, HandedOver fs c → HandedOver fs (handleClose c) := fun {c} h =>
    HandedOver.emit (c := { c with http := { c.http with connectionState := .disconnected } })
      ⟨h.sent, h.taken⟩ rfl rfl
  have htimer : HandedOver fs (c.emit .seperateTimer) := h.emit rfl rfl
  have hout := handleCurrentConn_concludes c
  generalize handleCurrentConn c = out at hout
  cases hout with
  | busy => exact (hlisten _ htimer).emit rfl rfl
  | idle => exact (hlisten _ htimer).emit rfl rfl
  | finished => exact hclose htimer
  | draining => exact hlisten _ htimer
  | drained => exact hclose htimer
  | gone => exact htimer

/-- **An event whose writes are taken sends the replies that are made in it.** -/
theorem run_handedOver {d : Dispatch} {h : Http} (hl : h.Live) (hb : h.writeBuffer = [])
    (hw : d.writes = []) : HandedOver d.fs (d.run h) := by
  have hstart : HandedOver d.fs (d.start h) := ⟨rfl, fun _ => ⟨hw, hb⟩⟩
  have hread : HandedOver d.fs (d.beforeRead h) := by
    unfold Dispatch.beforeRead
    split
    · have hacc := (preserved_accounted d.fs []).handleWrite hstart.accounted
      obtain ⟨wb, ev, hfr, -⟩ := handleWrite_frame (d.start h)
      have htaken : (handleWrite (d.start h)).writes = [] ∧
          (handleWrite (d.start h)).http.writeBuffer = [] := by
        unfold handleWrite
        rw [if_pos ⟨hl.noError, hl.notClosed⟩]
        dsimp only
        rw [flush_flush_accepted hw]
        exact ⟨hw, rfl⟩
      exact hacc.handedOver (by rw [hfr]; exact hl.noError) htaken.1 htaken.2
    · exact hstart
  by_cases ha : d.active.epollhup ∧ ¬ d.active.epollin
  · rw [d.run_hup h ha]
    exact hstart
  · rw [d.run_eq h ha]
    refine handleCurrentConn_handedOver ?_
    unfold Dispatch.beforeConn
    split
    · exact handleRead_handedOver d.fs d.before (hl.beforeRead d) hread
    · exact hread

/-! ## Runs -/

/-- The replies that were made while a connection was watched. -/
def repliesSeen (seen : List (Dispatch × List Effect)) : List Reply :=
  seen.flatMap fun p => repliesOf p.1.fs p.2

theorem repliesSeen_bytes (seen : List (Dispatch × List Effect)) (d : Dispatch)
    (trace : List Effect) : (repliesSeen (seen ++ [(d, trace)])).flatMap Reply.bytes =
      (repliesSeen seen).flatMap Reply.bytes ++ replyBytes d.fs trace := by
  simp [repliesSeen, replyBytes]

/-- **What a session whose peer takes everything has sent is the replies it made.** -/
theorem session_handedOver {seen : List (Dispatch × List Effect)} {t : Session}
    (h : sessions.Observed Session.watched seen t) (hw : ∀ p ∈ seen, p.1.writes = []) :
    bytesSent t.log = (repliesSeen seen).flatMap Reply.bytes ∧
      (t.http.connectionState ≠ .disconnected → t.http.writeBuffer = []) := by
  induction h with
  | init hi =>
    obtain rfl := hi
    exact ⟨rfl, fun _ => rfl⟩
  | @step seen t t' d hrun hstep ih =>
    obtain ⟨hopen, -, rfl⟩ := hstep
    rw [Session.watched, Option.toList_some] at hw ⊢
    obtain ⟨hsent, hqueue⟩ := ih fun p hp => hw p (List.mem_append_left _ hp)
    have hlive := (session_live hrun.reachable).resolve_right hopen
    have hrun := run_handedOver hlive (hqueue hopen)
      (hw _ (List.mem_append_right _ List.mem_cons_self))
    constructor
    · rw [repliesSeen_bytes, ← hsent, ← hrun.sent]
      exact bytesSent_append _ _
    · intro hstill
      exact (hrun.taken ((d.run_live hlive).resolve_right hstill).noError).2

namespace Server

variable {wakeupFd : Nat → Fd} {threadNum : Nat} {s : Server} {k : Nat} {id : HttpId}

/--
**What a client receives can always be told apart.** In every run of the server, whatever the bytes
are that come in on a connection, in whatever pieces, and whatever else the server does: when the
peer takes what is written, what the callbacks of the connection handed to `write` decodes to the
contents of the files and the pages that were asked for, in order and with nothing left over.
-/
theorem replies_decode {seen : List (Dispatch × List Effect)}
    (h : (servers wakeupFd threadNum).Observed (handled k id) seen s) (hk : k < s.started)
    (hw : ∀ p ∈ seen, p.1.writes = []) :
    decodeResponses (bytesSent (seen.map Prod.snd).flatten) =
      some ((repliesSeen seen).map Reply.body) := by
  obtain ⟨t, ht, -⟩ := EventLoop.watched_of_handled ((worker_observed h).1 hk)
  rw [← (session_of_watched ht).2, (session_handedOver ht hw).1]
  exact replyFraming.decode_flatMap _

/-- The client that asks for a file. -/
theorem replies_decode_agentRequest :
    ∃ seen u, (servers (fun _ => 3) 1).Observed (handled 0 0) seen u ∧
      seen.map Prod.fst = [agentEvent] ∧
      decodeResponses (bytesSent (seen.map Prod.snd).flatten) =
        some ((repliesSeen seen).map Reply.body) := by
  obtain ⟨seen, u, hrun, hstarted, hseen, -⟩ := welcome_begin agentEvent (by decide)
  refine ⟨seen, u, hrun, hseen, replies_decode hrun hstarted fun p hp => ?_⟩
  have hmem : p.1 ∈ seen.map Prod.fst := List.mem_map_of_mem hp
  rw [hseen, List.mem_singleton] at hmem
  rw [hmem]
  rfl

end Server

end FlashWeb
