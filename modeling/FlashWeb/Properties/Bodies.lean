import FlashWeb.Properties.SlowClients

/-!
# A `POST` is never answered

Behind the header of a `POST` request `HandleRead` is in `STATE_PARSE_BODY`, where it does nothing
and which it never leaves. What comes in from then on is put into `read_buffer_` and stays there: no
request is processed any more, however much comes in and whatever else the server does, and of what
is in `write_buffer_` only what was there before is written.
-/

namespace FlashWeb

open Lib

/-! ## What is read -/

/-- The bytes that `ReadFromFd` takes. -/
def taken (rs : List ReadResult) : Bytes := (readFromFd rs []).inBuffer

/-- The numbers of bytes read before do not matter. -/
theorem readLoop_inBuffer : ∀ (rs : List ReadResult) (n m : Nat) (buf : Bytes),
    (readLoop rs n buf).inBuffer = buf ++ (readLoop rs m []).inBuffer
  | [], n, m, buf => by simp [readLoop]
  | .eagain :: rs, n, m, buf => by simp [readLoop]
  | .eintr :: rs, n, m, buf => readLoop_inBuffer rs n m buf
  | .failed :: rs, n, m, buf => by simp [readLoop]
  | .eof :: rs, n, m, buf => by simp [readLoop]
  | .data chunk :: rs, n, m, buf => by
    have hleft := readLoop_inBuffer rs (n + chunk.bytes.length) 0 (buf ++ chunk.bytes)
    have hright := readLoop_inBuffer rs (m + chunk.bytes.length) 0 ([] ++ chunk.bytes)
    rw [readLoop, readLoop, hleft, hright, List.nil_append, List.append_assoc]

theorem readFromFd_inBuffer (rs : List ReadResult) (buf : Bytes) :
    (readFromFd rs buf).inBuffer = buf ++ taken rs := readLoop_inBuffer rs 0 0 buf

/-- The bytes that an event takes. -/
def Dispatch.taken (d : Dispatch) : Bytes :=
  if d.active.epollhup ∧ ¬ d.active.epollin then []
  else if d.active.epollin ∨ d.active.epollpri ∨ d.active.epollrdhup then FlashWeb.taken d.reads
  else []

/-! ## What happens in `STATE_PARSE_BODY` -/

/-- From `h` with the log `log` on, `got` was taken and nothing was made of it. -/
structure Absorbs (got : Bytes) (h : Http) (log : List Effect) (h' : Http) (log' : List Effect) :
    Prop where
  body : h'.processState = .stateParseBody
  requests : requestsOf log' = requestsOf log
  writeBuffer : h'.writeBuffer <:+ h.writeBuffer
  buffered : h'.connectionState = .connected →
    h.connectionState = .connected ∧ h'.readBuffer = h.readBuffer ++ got

theorem Absorbs.refl {h : Http} (hb : h.processState = .stateParseBody) (log : List Effect) :
    Absorbs [] h log h log :=
  ⟨hb, rfl, List.suffix_rfl, fun hc => ⟨hc, (List.append_nil _).symm⟩⟩

theorem Absorbs.trans {got got' : Bytes} {h h' h'' : Http} {log log' log'' : List Effect}
    (ha : Absorbs got h log h' log') (ha' : Absorbs got' h' log' h'' log'') :
    Absorbs (got ++ got') h log h'' log'' where
  body := ha'.body
  requests := ha'.requests.trans ha.requests
  writeBuffer := ha'.writeBuffer.trans ha.writeBuffer
  buffered hc := by
    obtain ⟨hc', hbuf'⟩ := ha'.buffered hc
    obtain ⟨hc'', hbuf⟩ := ha.buffered hc'
    exact ⟨hc'', by rw [hbuf', hbuf, List.append_assoc]⟩

/-- A callback that takes no bytes. -/
theorem Absorbs.append_nil {got : Bytes} {h h' h'' : Http} {log log' log'' : List Effect}
    (ha : Absorbs got h log h' log') (ha' : Absorbs [] h' log' h'' log'') :
    Absorbs got h log h'' log'' := by
  have htrans := ha.trans ha'
  rwa [List.append_nil] at htrans

/-- What the callbacks did to a connection. -/
abbrev Conn.Absorbs (c : Conn) (got : Bytes) (out : Conn) : Prop :=
  FlashWeb.Absorbs got c.http c.trace out.http out.trace

variable {c : Conn}

theorem absorbs_emit (hb : c.http.processState = .stateParseBody) {e : Effect}
    (he : e.processed = none) : c.Absorbs [] (c.emit e) :=
  ⟨hb, by simp [requestsOf, he], List.suffix_rfl, fun hc => ⟨hc, (List.append_nil _).symm⟩⟩

theorem absorbs_listen (hb : c.http.processState = .stateParseBody) (ev : EventMask) :
    c.Absorbs [] (c.listen ev) :=
  ⟨hb, rfl, List.suffix_rfl, fun hc => ⟨hc, (List.append_nil _).symm⟩⟩

theorem absorbs_handleClose (hb : c.http.processState = .stateParseBody) :
    c.Absorbs [] (handleClose c) :=
  ⟨hb, by simp [FlashWeb.handleClose, requestsOf, Effect.processed], List.suffix_rfl,
    fun hc => absurd hc ConnectionState.noConfusion⟩

theorem absorbs_flush (hb : c.http.processState = .stateParseBody) : c.Absorbs [] (flush c) := by
  refine ⟨hb, by simp [flush, requestsOf, Effect.processed], ?_,
    fun hc => ⟨hc, (List.append_nil _).symm⟩⟩
  show (writeToFd c.writes c.http.writeBuffer).outBuffer <:+ _
  rcases writeToFd_spec c.writes c.http.writeBuffer with ⟨-, hout⟩ | ⟨-, hout⟩
  · rw [hout]
  · exact ⟨_, hout⟩

theorem absorbs_handleWrite (hb : c.http.processState = .stateParseBody) :
    c.Absorbs [] (handleWrite c) := by
  unfold handleWrite
  split
  · have hflush := absorbs_flush hb
    have htwice := hflush.append_nil (absorbs_flush hflush.body)
    dsimp only
    split
    · exact htwice.append_nil (absorbs_listen htwice.body _)
    · exact htwice
  · exact .refl hb _

theorem absorbs_writeResponse (hb : c.http.processState = .stateParseBody) :
    c.Absorbs [] (writeResponse c) := by
  unfold writeResponse
  split
  · exact absorbs_handleWrite hb
  · exact .refl hb _

section

variable (fs : FileSystem) (before : UInt8)

/-- No stage has anything to do. -/
theorem stageUri_body (hb : c.http.processState = .stateParseBody) : stageUri fs before c = c := by
  unfold stageUri stageHeader stageProcess
  simp [hb]

theorem absorbs_readAndParse (hb : c.http.processState = .stateParseBody) :
    c.Absorbs (taken c.reads) (readAndParse fs before c) := by
  unfold readAndParse
  dsimp only
  rw [readFromFd_inBuffer]
  split
  · next hst => exact ⟨hb, rfl, List.suffix_rfl, fun hc => absurd (hst.symm.trans hc) (by decide)⟩
  · split
    · refine ⟨hb, ?_, List.suffix_rfl, fun hc => ⟨hc, rfl⟩⟩
      simp [reject, badRequest, handleError, requestsOf, Effect.processed]
    · split
      · split
        · exact ⟨hb, rfl, List.suffix_rfl, fun hc => absurd hc (by simp)⟩
        · rw [stageUri_body fs before]
          · exact ⟨hb, rfl, List.suffix_rfl, fun hc => absurd hc (by simp)⟩
          · exact hb
      · rw [stageUri_body fs before]
        · exact ⟨hb, rfl, List.suffix_rfl, fun hc => ⟨hc, rfl⟩⟩
        · exact hb

/-- **`HandleRead` buffers what it reads.** -/
theorem absorbs_handleRead (hb : c.http.processState = .stateParseBody) :
    c.Absorbs (taken c.reads) (handleRead fs before c) := by
  have hread := absorbs_readAndParse fs before hb
  rw [handleRead, handleReadFuel, handleReadBody]
  dsimp only
  split
  · have hresp := hread.append_nil (absorbs_writeResponse hread.body)
    rw [if_neg (by simp [hresp.body])]
    split
    · exact hresp.append_nil (absorbs_listen hresp.body _)
    · exact hresp
  · exact hread.append_nil (absorbs_handleClose hread.body)

end

theorem absorbs_handleCurrentConn (hb : c.http.processState = .stateParseBody) :
    c.Absorbs [] (handleCurrentConn c) := by
  have hout := handleCurrentConn_concludes c
  have hsep := absorbs_emit (e := .seperateTimer) hb rfl
  generalize handleCurrentConn c = out at hout ⊢
  cases hout with
  | busy =>
    have hmask := hsep.append_nil (absorbs_listen hsep.body EventMask.outEt)
    exact hmask.append_nil (absorbs_emit hmask.body rfl)
  | idle =>
    have hmask := hsep.append_nil (absorbs_listen hsep.body EventMask.inEt)
    exact hmask.append_nil (absorbs_emit hmask.body rfl)
  | finished => exact hsep.append_nil (absorbs_handleClose hsep.body)
  | draining => exact hsep.append_nil (absorbs_listen hsep.body _)
  | drained => exact hsep.append_nil (absorbs_handleClose hsep.body)
  | gone => exact hsep

/-! ## One event -/

theorem absorbs_beforeRead {h : Http} (hb : h.processState = .stateParseBody) (d : Dispatch) :
    (d.start h).Absorbs [] (d.beforeRead h) ∧ (d.beforeRead h).reads = d.reads := by
  have hstart : (d.start h).http.processState = .stateParseBody := hb
  unfold Dispatch.beforeRead
  split
  · obtain ⟨-, -, -, hreads⟩ := handleWrite_frame (d.start h)
    exact ⟨absorbs_handleWrite hstart, hreads⟩
  · exact ⟨.refl hstart _, rfl⟩

/-- **An event takes its bytes and nothing comes of them.** -/
theorem Dispatch.run_absorbs {h : Http} (hb : h.processState = .stateParseBody) (d : Dispatch) :
    (d.start h).Absorbs d.taken (d.run h) := by
  unfold Dispatch.taken
  by_cases ha : d.active.epollhup ∧ ¬ d.active.epollin
  · rw [if_pos ha, d.run_hup h ha]
    exact .refl (h := (d.start h).http) hb _
  · obtain ⟨hread, hreads⟩ := absorbs_beforeRead hb d
    rw [if_neg ha, d.run_eq h ha, Dispatch.beforeConn]
    split
    · have htake := hread.trans (absorbs_handleRead d.fs d.before hread.body)
      rw [hreads, List.nil_append] at htake
      exact htake.append_nil (absorbs_handleCurrentConn htake.body)
    · exact hread.append_nil (absorbs_handleCurrentConn hread.body)

/-! ## A whole connection -/

/-- What the callbacks did to a session. -/
abbrev Session.Absorbs (t : Session) (got : Bytes) (t' : Session) : Prop :=
  FlashWeb.Absorbs got t.http t.log t'.http t'.log

theorem Session.absorbs_dispatch {t : Session} (hb : t.http.processState = .stateParseBody)
    (d : Dispatch) : t.Absorbs d.taken (t.dispatch d) := by
  have hrun := d.run_absorbs hb
  refine ⟨hrun.body, ?_, hrun.writeBuffer, hrun.buffered⟩
  show requestsOf (t.log ++ (d.run t.http).trace) = _
  rw [requestsOf_append, hrun.requests]
  exact List.append_nil _

/-- The induction is on the events. -/
theorem Session.absorbs_foldl : ∀ (ds : List Dispatch) {t : Session},
    t.http.processState = .stateParseBody →
    t.Absorbs (ds.flatMap Dispatch.taken) (ds.foldl Session.dispatch t)
  | [], _, hb => .refl hb _
  | d :: ds, _, hb =>
    have hstep := absorbs_dispatch hb d
    hstep.trans (absorbs_foldl ds hstep.body)

/-- A connection of a loop from some moment on: what it had done by then is in `front`. -/
theorem EventLoop.absorbs {wakeupFd : Fd} {s t : EventLoop} {id : HttpId}
    {front seen : List (Dispatch × List Effect)}
    (hs : (loops wakeupFd).Observed (handled id) front s)
    (ht : (loops wakeupFd).Observed (handled id) (front ++ seen) t) (hreg : s.Registered id)
    (hb : (s.http id).processState = .stateParseBody) :
    requestsOf (seen.map Prod.snd).flatten = [] ∧ (t.Registered id → ∃ log log',
      Absorbs ((seen.map Prod.fst).flatMap Dispatch.taken) (s.http id) log (t.http id) log') := by
  obtain ⟨u, hu, hm⟩ := watched_of_handled hs
  obtain ⟨v, hv, hm'⟩ := watched_of_handled ht
  obtain ⟨hlabelled, hlog⟩ := session_of_watched hu
  obtain ⟨hlabelled', hlog'⟩ := session_of_watched hv
  have hfold := sessions_labelled hlabelled'
  rw [List.map_append, List.foldl_append, ← sessions_labelled hlabelled] at hfold
  rw [hm.http hreg] at hb
  have habs := Session.absorbs_foldl (seen.map Prod.fst) hb
  rw [← hfold] at habs
  constructor
  · have hreq := habs.requests
    rw [hlog, hlog', List.map_append, List.flatten_append, requestsOf_append] at hreq
    exact List.append_right_eq_self.mp hreq
  · intro hreg'
    rw [hm.http hreg, hm'.http hreg']
    exact ⟨_, _, habs⟩

/-! ## A connection of a server -/

namespace Server

variable {wakeupFd : Nat → Fd} {threadNum : Nat} {s t : Server} {k : Nat} {id : HttpId}

/-- No thread that was started is forgotten. -/
theorem started_le (h : ((servers wakeupFd threadNum).after s).Reachable t) :
    s.started ≤ t.started := by
  induction h with
  | init hi => exact (congrArg Server.started hi).ge
  | @step u v a _ hstep ih =>
    refine ih.trans ?_
    cases hstep with
    | spawn => exact Nat.le_succ _
    | _ => exact Nat.le_refl _

/--
**A `POST` is never answered.** Once a connection is in `STATE_PARSE_BODY`, in every continuation of
the run, whatever comes in and whatever else the server does: no request is processed for it any
more, nothing is added to `write_buffer_`, and as long as it is registered and both sides are open
every byte that is read for it is kept.
-/
theorem posts_unanswered (hs : (servers wakeupFd threadNum).Reachable s) (hk : k < s.started)
    (hreg : (s.threads k).loop.Registered id)
    (hb : ((s.threads k).loop.http id).processState = .stateParseBody)
    {seen : List (Dispatch × List Effect)}
    (ht : ((servers wakeupFd threadNum).after s).Observed (handled k id) seen t) :
    requestsOf (seen.map Prod.snd).flatten = [] ∧
      ((t.threads k).loop.Registered id →
        ((t.threads k).loop.http id).processState = .stateParseBody ∧
        ((t.threads k).loop.http id).writeBuffer <:+ ((s.threads k).loop.http id).writeBuffer ∧
        (((t.threads k).loop.http id).connectionState = .connected →
          ((t.threads k).loop.http id).readBuffer =
            ((s.threads k).loop.http id).readBuffer ++
              (seen.map Prod.fst).flatMap Dispatch.taken)) := by
  obtain ⟨front, hfront⟩ := hs.observed (handled k id)
  have hloop := (worker_observed hfront).1 hk
  have hloop' := (worker_observed (hfront.trans ht)).1 (hk.trans_le (started_le ht.reachable))
  obtain ⟨hreq, habs⟩ := EventLoop.absorbs hloop hloop' hreg hb
  refine ⟨hreq, fun hreg' => ?_⟩
  obtain ⟨_, _, h⟩ := habs hreg'
  exact ⟨h.body, h.writeBuffer, fun hc => (h.buffered hc).2⟩

end Server

/-! ## An example -/

/-- A `POST` request with one header line, as the server takes it. -/
def plainPost : Chunk := ⟨text "POST / HTTP/1.1rA: b\r\n\r\n", by decide, by decide⟩

/-- It is the first thing on a connection. -/
def postEvent : Dispatch := .bringing .blank plainPost

/-- Two bytes of the body come in. -/
def bodyEvent : Dispatch := .bringing .blank ⟨text "xy", by decide, by decide⟩

/-- The connection can be written. -/
def writable : Dispatch := ⟨EventMask.outEt, [], [], .blank, 0⟩

namespace EventLoop

/-- The event as it is handled. -/
def postHandling : Handling :=
  ⟨0, postEvent, serving.http 0, (postEvent.run (serving.http 0)).trace, []⟩

/-- The loop behind the event. -/
def postDone : EventLoop :=
  finish postHandling ((serving.wait [(5, EventMask.inEt)]).begin 0 postEvent []) postHandling.todo

/-- The loop when it waits again. -/
def postWaiting : EventLoop :=
  ((({ postDone with callbackList := [], phase := .running [] }).enter .expiring).expire
    servingNode.clearNode).enter .polling

theorem postDone_top : postDone.timerManager.IsTop servingNode.clearNode := by decide

theorem postNode_top : (postDone.timerManager.pop servingNode.clearNode).IsTop slowNode := by
  decide

theorem postWaiting_interest : postWaiting.interest 5 = some EventMask.outEt := by decide

theorem postWaiting_wait :
    Steps 3 postWaiting (.wait [(5, EventMask.outEt)])
      (postWaiting.wait [(5, EventMask.outEt)]) :=
  .wait _ rfl (by decide) (List.nodup_singleton _) fun r hr => by
    obtain rfl := List.mem_singleton.mp hr
    exact ⟨EventMask.outEt, postWaiting_interest, by decide⟩

/-- The loop when it waits for the third time. -/
def bodyWaiting : EventLoop := (postWaiting.handle writable).rested

/-- The timer that was set in the second event. -/
def bodyNode : TimerNode := TimerNode.construct 2 0 DEFAULT_KEEP_ALIVE_TIME 0

theorem bodyNode_top : (postWaiting.handle writable).timerManager.IsTop bodyNode := by decide

theorem bodyWaiting_interest : bodyWaiting.interest 5 = some EventMask.inEt := by decide

theorem bodyWaiting_registered : bodyWaiting.Registered 0 := by decide

theorem bodyWaiting_body : (bodyWaiting.http 0).processState = .stateParseBody := by decide

/-- The loop when the body has come in. -/
def bodyBegun : EventLoop := (bodyWaiting.wait [(5, EventMask.inEt)]).begin 0 bodyEvent []

theorem bodyBegun_registered : bodyBegun.Registered 0 := by decide

theorem bodyBegun_connected : (bodyBegun.http 0).connectionState = .connected := by decide

theorem bodyWaiting_taken :
    (bodyWaiting.http 0).readBuffer ++ [bodyEvent].flatMap Dispatch.taken = text "xy" := by decide

theorem bodyWaiting_wait :
    Steps 3 bodyWaiting (.wait [(5, EventMask.inEt)]) (bodyWaiting.wait [(5, EventMask.inEt)]) :=
  .wait _ rfl (by decide) (List.nodup_singleton _) fun r hr => by
    obtain rfl := List.mem_singleton.mp hr
    exact ⟨EventMask.inEt, bodyWaiting_interest, by decide⟩

end EventLoop

namespace Server

/-- The server when the `POST` request has come in and the connection has been written. -/
theorem welcome_post : (servers (fun _ => 3) 1).Reachable
    (listening.welcome.setLoop 0 EventLoop.bodyWaiting) := by
  have hrep : EventMask.inEt.Reportable EventMask.inEt := by decide
  have hwait := welcome_quiet welcome_handled (EventLoop.serving_wait hrep) (by simp) rfl
  have hbegin := welcome_step hwait (Steps.begin postEvent rfl) (by simp)
  have hdone := welcome_finish (h := EventLoop.postHandling) hbegin rfl
  have hrest := welcome_turn hdone rfl rfl EventLoop.postDone_top EventLoop.postNode_top (by decide)
  have hwritten := welcome_handle (d := writable) hrest EventLoop.postWaiting_wait rfl
  exact (welcome_rest hwritten rfl rfl EventLoop.bodyNode_top (by decide)).reachable

/-- The body is kept and not looked at. -/
theorem posts_unanswered_writable : ∃ seen t,
    ((servers (fun _ => 3) 1).after (listening.welcome.setLoop 0 EventLoop.bodyWaiting)).Observed
      (handled 0 0) seen t ∧ seen.map Prod.fst = [bodyEvent] ∧
      requestsOf (seen.map Prod.snd).flatten = [] ∧
      ((t.threads 0).loop.http 0).processState = .stateParseBody ∧
      ((t.threads 0).loop.http 0).readBuffer = text "xy" := by
  let start := listening.welcome.setLoop 0 EventLoop.bodyWaiting
  have h0 : ((servers (fun _ => 3) 1).after start).Observed (handled 0 0) [] start := .init rfl
  have h1 := h0.step
    (ServerSteps.worker 0 Nat.one_pos rfl (by simp) EventLoop.bodyWaiting_wait)
  have h2 := h1.step (ServerSteps.worker 0 Nat.one_pos rfl (by simp) (Steps.begin bodyEvent rfl))
  obtain ⟨seen, t, hrun, hseen, hloop⟩ : ∃ seen t,
      ((servers (fun _ => 3) 1).after start).Observed (handled 0 0) seen t ∧
      seen.map Prod.fst = [bodyEvent] ∧ (t.threads 0).loop = EventLoop.bodyBegun :=
    ⟨_, _, h2, rfl, rfl⟩
  obtain ⟨hrequests, hkept⟩ := posts_unanswered welcome_post Nat.one_pos
    EventLoop.bodyWaiting_registered EventLoop.bodyWaiting_body hrun
  rw [hloop, hseen] at hkept
  obtain ⟨hbody, -, hbuffer⟩ := hkept EventLoop.bodyBegun_registered
  rw [← hloop] at hbody hbuffer
  refine ⟨seen, t, hrun, hseen, hrequests, hbody, ?_⟩
  exact (hbuffer (hloop ▸ EventLoop.bodyBegun_connected)).trans EventLoop.bodyWaiting_taken

end Server

end FlashWeb
