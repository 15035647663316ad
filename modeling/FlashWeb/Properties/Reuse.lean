import FlashWeb.Properties.Dispatch

/-!
# A connection that is used again

`reset` leaves `method_` and `http_version_` as the request before set them, and a new connection
has an uninitialised `method_`. Neither can be seen: while `process_state_` is `STATE_PARSE_URI`
nothing reads the two fields, and the only way out of that state is a request line that assigns
both. `SameBut t c d` says that `d` is `c` with other values in fields that nobody will read, and
with `t` done before; every step of the callbacks takes such a pair to such a pair.
-/

namespace FlashWeb

/-! ## A hidden past -/

/-- What earlier requests left in `method_` and `http_version_`, and what was done for them. -/
structure Past where
  method : Option HttpMethod
  httpVersion : HttpVersion
  trace : List Effect

def Http.after (h : Http) (p : Past) : Http :=
  { h with method := p.method, httpVersion := p.httpVersion }

def Conn.after (c : Conn) (p : Past) : Conn :=
  { c with http := c.http.after p, trace := p.trace ++ c.trace }

/-- Nobody reads a field that the past changed. -/
def Past.Hidden (p : Past) (h : Http) : Prop :=
  h.processState = .stateParseUri ∨ (p.method = h.method ∧ p.httpVersion = h.httpVersion)

/-- `d` is `c` with a hidden past, in which `t` was done. -/
def SameBut (t : List Effect) (c d : Conn) : Prop :=
  ∃ p : Past, p.trace = t ∧ p.Hidden c.http ∧ d = c.after p

/-- A past in which the line fields were what they are now. -/
theorem sameBut_same (c : Conn) (t : List Effect) : SameBut t c { c with trace := t ++ c.trace } :=
  ⟨⟨c.http.method, c.http.httpVersion, t⟩, rfl, Or.inr ⟨rfl, rfl⟩, rfl⟩

/-- Outside `STATE_PARSE_URI` a hidden past is only a trace. -/
theorem SameBut.eq_trace {t : List Effect} {c d : Conn} (h : SameBut t c d)
    (hs : c.http.processState ≠ .stateParseUri) : d = { c with trace := t ++ c.trace } := by
  obtain ⟨⟨m, v, t⟩, rfl, hh, rfl⟩ := h
  obtain ⟨rfl, rfl⟩ : m = c.http.method ∧ v = c.http.httpVersion := hh.resolve_left hs
  rfl

section

variable {t : List Effect} {c d : Conn}

theorem SameBut.reads (h : SameBut t c d) : d.reads = c.reads := by
  obtain ⟨p, -, -, rfl⟩ := h
  rfl

theorem SameBut.trace (h : SameBut t c d) : d.trace = t ++ c.trace := by
  obtain ⟨p, rfl, -, rfl⟩ := h
  rfl

theorem SameBut.http (h : SameBut t c d) :
    ∃ p : Past, p.Hidden c.http ∧ d.http = c.http.after p := by
  obtain ⟨p, -, hh, rfl⟩ := h
  exact ⟨p, hh, rfl⟩

end

/-! ## Steps that never read the two fields -/

section

variable (c : Conn) (p : Past)

@[simp] theorem after_hasError : (c.after p).http.hasError = c.http.hasError := rfl
@[simp] theorem after_connectionState :
    (c.after p).http.connectionState = c.http.connectionState := rfl
@[simp] theorem after_processState : (c.after p).http.processState = c.http.processState := rfl
@[simp] theorem after_toListenEvents :
    (c.after p).http.toListenEvents = c.http.toListenEvents := rfl
@[simp] theorem after_readBuffer : (c.after p).http.readBuffer = c.http.readBuffer := rfl
@[simp] theorem after_writeBuffer : (c.after p).http.writeBuffer = c.http.writeBuffer := rfl
@[simp] theorem after_keepAlive : (c.after p).http.keepAlive = c.http.keepAlive := rfl
@[simp] theorem after_reads : (c.after p).reads = c.reads := rfl

@[simp] theorem after_emit (e : Effect) : (c.after p).emit e = (c.emit e).after p := by
  simp [Conn.emit, Conn.after]

@[simp] theorem after_listen (ev : EventMask) : (c.after p).listen ev = (c.listen ev).after p := rfl

theorem after_ite (q : Prop) [Decidable q] (d : Conn) :
    (if q then c.after p else d.after p) = (if q then c else d).after p := by
  split <;> rfl

end

/-- A step that does the same with any past. -/
structure Neutral (f : Conn → Conn) : Prop where
  after : ∀ c p, f (c.after p) = (f c).after p
  hidden : ∀ c (p : Past), p.Hidden c.http → p.Hidden (f c).http

theorem Neutral.sameBut {f : Conn → Conn} (hf : Neutral f) {t : List Effect} {c d : Conn}
    (h : SameBut t c d) : SameBut t (f c) (f d) := by
  obtain ⟨p, ht, hh, rfl⟩ := h
  exact ⟨p, ht, hf.hidden c p hh, hf.after c p⟩

theorem neutral_listen (ev : EventMask) : Neutral (·.listen ev) := ⟨fun _ _ => rfl, fun _ _ h => h⟩

theorem neutral_handleClose : Neutral handleClose where
  after c p := by simp [handleClose, Conn.emit, Conn.after, Http.after]
  hidden _ _ h := h

theorem neutral_reset : Neutral reset where
  after c p := by simp [reset, Conn.emit, Conn.after, Http.after]
  hidden _ _ _ := Or.inl rfl

theorem neutral_badRequest : Neutral badRequest where
  after c p := by simp [badRequest, handleError, Conn.emit, Conn.after, Http.after]
  hidden _ _ h := h

theorem neutral_reject : Neutral reject where
  after c p := by rw [reject, after_emit, neutral_badRequest.after]; rfl
  hidden _ _ h := h

theorem neutral_flush : Neutral flush where
  after c p := by
    unfold flush
    exact after_emit { c with
      http := { c.http with writeBuffer := (writeToFd c.writes c.http.writeBuffer).outBuffer }
      writes := (writeToFd c.writes c.http.writeBuffer).writes } p _
  hidden _ _ h := h

theorem neutral_handleWrite : Neutral handleWrite where
  after c p := by
    simp only [handleWrite, neutral_flush.after, after_hasError, after_connectionState,
      after_toListenEvents, after_writeBuffer, after_listen, after_ite]
  hidden c p h := by
    obtain ⟨wb, ev, hw, -⟩ := handleWrite_frame c
    rw [hw]
    exact h

theorem neutral_writeResponse : Neutral writeResponse where
  after c p := by
    simp only [writeResponse, neutral_handleWrite.after, after_writeBuffer, after_ite]
  hidden c p h := by
    obtain ⟨wb, ev, hw, -⟩ := writeResponse_frame c
    rw [hw]
    exact h

theorem neutral_handleCurrentConn : Neutral handleCurrentConn where
  after c p := by
    simp only [handleCurrentConn, neutral_handleClose.after, after_emit, after_hasError,
      after_connectionState, after_toListenEvents, after_keepAlive, after_listen, after_ite]
  hidden c p h := by
    unfold handleCurrentConn
    dsimp only
    split
    · split
      · split <;> exact h
      · split <;> exact h
    · split
      · split <;> exact h
      · exact h

/-! ## Parsing and processing -/

/-- **`ParseURI` overwrites the past when it accepts a line.** -/
theorem parseUri_after (h : Http) (p : Past) :
    ((parseUri h).1 = .parseUriSuccess ∧ parseUri (h.after p) = parseUri h) ∨
      ((parseUri h).1 ≠ .parseUriSuccess ∧ ∃ q : Past, q.trace = p.trace ∧
        parseUri (h.after p) = ((parseUri h).1, (parseUri h).2.after q)) := by
  by_cases hd : lineDelimiter ∈ h.readBuffer
  · obtain ⟨line, rest, hb, hl⟩ := List.eq_append_cons_of_mem hd
    rw [parseUri_append h hl hb, parseUri_append (h.after p) hl hb]
    rcases parseHeaderLine_spec line with ⟨m, path, v, hs⟩ | ⟨m, path, hs⟩
    · rw [hs, hs]
      exact Or.inl ⟨rfl, rfl⟩
    · rw [hs, hs]
      exact Or.inr ⟨by simp, ⟨m p.method, p.httpVersion, p.trace⟩, rfl, rfl⟩
  · rw [parseUri_again hd, parseUri_again (h := h.after p) hd]
    exact Or.inr ⟨by simp, p, rfl, rfl⟩

theorem parseUri_processState (h : Http) : (parseUri h).2.processState = h.processState := by
  rcases parseUri_cases h with ⟨-, heq⟩ | ⟨line, rest, -, -, heq⟩
  · rw [heq]
  · rcases parseHeaderLine_spec line with ⟨m, path, v, hs⟩ | ⟨m, path, hs⟩ <;> rw [heq, hs] <;> rfl

section

variable (fs : FileSystem) (before : UInt8)

/-- `ProcessRequest` with `t` done before. -/
theorem processRequest_trace (c : Conn) (t : List Effect) :
    processRequest fs { c with trace := t ++ c.trace } =
      ((processRequest fs c).1,
        { (processRequest fs c).2 with trace := t ++ (processRequest fs c).2.trace }) := by
  unfold processRequest
  split
  · rfl
  · next hm =>
    cases hk : wantsKeepAlive c.http.headerKv <;>
    cases hs : fs.stat (cStr c.http.filePath) with
    | none => simp [hk, hs, handleError, Conn.emit, Conn.append]
    | some size =>
      cases ho : fs.opens (cStr c.http.filePath) with
      | false => simp [hk, hs, ho, handleError, Conn.emit, Conn.append, Conn.clearWrite]
      | true =>
        cases hd : fs.mmap (cStr c.http.filePath) size with
        | none => simp [hk, hs, ho, hd, handleError, Conn.emit, Conn.append, Conn.clearWrite]
        | some data => simp [hk, hs, ho, hd, Conn.append]

theorem stageProcess_sameBut {t : List Effect} {c d : Conn} (h : SameBut t c d) :
    SameBut t (stageProcess fs c) (stageProcess fs d) := by
  by_cases hs : c.http.processState = .stateProcess
  · rw [h.eq_trace (by rw [hs]; simp)]
    have heq : stageProcess fs { c with trace := t ++ c.trace } =
        { stageProcess fs c with trace := t ++ (stageProcess fs c).trace } := by
      unfold stageProcess
      rw [if_pos hs, if_pos hs, processRequest_trace]
      cases hp : processRequest fs c with
      | mk verdict c' =>
        cases verdict with
        | none => rfl
        | some verdict =>
          cases verdict with
          | processError => simp [badRequest, handleError, Conn.emit]
          | processSuccess => simp [Conn.emit, Conn.enter]
    rw [heq]
    exact sameBut_same _ t
  · have hd : d.http.processState ≠ .stateProcess := by
      obtain ⟨p, -, -, rfl⟩ := h
      exact hs
    unfold stageProcess
    rw [if_neg hs, if_neg hd]
    exact h

theorem stageHeader_sameBut {t : List Effect} {c d : Conn} (h : SameBut t c d) :
    SameBut t (stageHeader fs before c) (stageHeader fs before d) := by
  by_cases hs : c.http.processState = .stateParseHeader
  · rw [h.eq_trace (by rw [hs]; simp)]
    unfold stageHeader
    rw [if_pos hs, if_pos hs]
    dsimp only
    cases hp : parseHeaders before c.http with
    | mk verdict p =>
      cases verdict with
      | parseHeaderAgain => exact sameBut_same { c with http := p } t
      | parseHeaderError => exact neutral_reject.sameBut (sameBut_same { c with http := p } t)
      | parseHeaderSuccess =>
        have hsame : ∀ st, SameBut t (({ c with http := p } : Conn).enter st)
            (({ c with http := p, trace := t ++ c.trace } : Conn).enter st) :=
          fun st => sameBut_same (({ c with http := p } : Conn).enter st) t
        dsimp only
        cases p.method with
        | none => exact stageProcess_sameBut fs (sameBut_same { c with http := p } t)
        | some m =>
          cases m with
          | methodPost => exact stageProcess_sameBut fs (hsame _)
          | methodGet => exact stageProcess_sameBut fs (hsame _)
  · have hd : d.http.processState ≠ .stateParseHeader := by
      obtain ⟨p, -, -, rfl⟩ := h
      exact hs
    unfold stageHeader
    rw [if_neg hs, if_neg hd]
    exact stageProcess_sameBut fs h

theorem stageUri_sameBut {t : List Effect} {c d : Conn} (h : SameBut t c d) :
    SameBut t (stageUri fs before c) (stageUri fs before d) := by
  obtain ⟨p, rfl, hh, rfl⟩ := h
  by_cases hs : c.http.processState = .stateParseUri
  · have hstate := (parseUri_processState c.http).trans hs
    unfold stageUri
    rw [if_pos hs, if_pos (show (c.after p).http.processState = _ from hs),
      show (c.after p).http = c.http.after p from rfl]
    rcases parseUri_after c.http p with ⟨hv, heq⟩ | ⟨hv, q, hq, heq⟩
    · rw [heq]
      cases hp : parseUri c.http with
      | mk verdict u =>
        rw [hp] at hv
        cases verdict with
        | parseUriAgain => simp at hv
        | parseUriError => simp at hv
        | parseUriSuccess =>
          exact stageHeader_sameBut fs before
            (sameBut_same (({ c with http := u } : Conn).enter .stateParseHeader) p.trace)
    · rw [heq]
      cases hp : parseUri c.http with
      | mk verdict u =>
        rw [hp] at hv hstate
        have hsame : SameBut p.trace { c with http := u }
            { c.after p with http := u.after q } := 
          ⟨q, hq, Or.inl hstate, by simp only [Conn.after, hq]⟩
        cases verdict with
        | parseUriAgain => exact hsame
        | parseUriError => exact neutral_reject.sameBut hsame
        | parseUriSuccess => exact absurd rfl hv
  · unfold stageUri
    rw [if_neg hs, if_neg (show (c.after p).http.processState ≠ _ from hs)]
    exact stageHeader_sameBut fs before ⟨p, rfl, hh, rfl⟩

/-! ## The callbacks -/

theorem readAndParse_sameBut {t : List Effect} {c d : Conn} (h : SameBut t c d) :
    SameBut t (readAndParse fs before c) (readAndParse fs before d) := by
  obtain ⟨p, rfl, hh, rfl⟩ := h
  unfold readAndParse
  rw [after_reads, after_readBuffer]
  generalize readFromFd c.reads c.http.readBuffer = r
  dsimp only
  have hsame : ∀ buf st, SameBut p.trace
      { c with http := { c.http with readBuffer := buf, connectionState := st }, reads := r.reads }
      { c.after p with
        http := { (c.after p).http with readBuffer := buf, connectionState := st }
        reads := r.reads } :=
    fun buf st => ⟨p, rfl, hh, rfl⟩
  rw [after_connectionState]
  split
  · exact hsame [] c.http.connectionState
  · split
    · exact neutral_reject.sameBut (hsame r.inBuffer c.http.connectionState)
    · split
      · split
        · exact hsame r.inBuffer .disconnecting
        · exact stageUri_sameBut fs before (hsame r.inBuffer .disconnecting)
      · exact stageUri_sameBut fs before (hsame r.inBuffer c.http.connectionState)

theorem handleReadBody_sameBut {t : List Effect} {again : Conn → Conn}
    (hagain : ∀ c d, SameBut t c d → SameBut t (again c) (again d)) {c d : Conn}
    (h : SameBut t c d) :
    SameBut t (handleReadBody fs before again c) (handleReadBody fs before again d) := by
  have hevents : d.http.toListenEvents = c.http.toListenEvents := by
    obtain ⟨p, -, -, rfl⟩ := h
    rfl
  unfold handleReadBody
  rw [hevents]
  obtain ⟨p, rfl, hh, hr⟩ := readAndParse_sameBut fs before h
  rw [hr]
  dsimp only
  rw [after_hasError]
  split
  · rw [neutral_writeResponse.after, after_hasError, after_processState]
    have hw : SameBut p.trace (writeResponse (readAndParse fs before c))
        ((writeResponse (readAndParse fs before c)).after p) :=
      ⟨p, rfl, neutral_writeResponse.hidden _ p hh, rfl⟩
    split
    · have hreset := neutral_reset.sameBut hw
      rw [neutral_reset.after] at hreset ⊢
      rw [after_readBuffer, after_connectionState]
      split
      · exact hagain _ _ hreset
      · exact hreset
    · rw [after_connectionState]
      split
      · exact (neutral_listen _).sameBut hw
      · exact hw
  · exact neutral_handleClose.sameBut ⟨p, rfl, hh, rfl⟩

theorem handleRead_sameBut {t : List Effect} {c d : Conn} (h : SameBut t c d) :
    SameBut t (handleRead fs before c) (handleRead fs before d) := by
  have hfuel : ∀ n c d, SameBut t c d →
      SameBut t (handleReadFuel fs before n c) (handleReadFuel fs before n d) := by
    intro n
    induction n with
    | zero => exact fun _ _ h => h
    | succ n ih => exact fun _ _ h => handleReadBody_sameBut fs before ih h
  have hpending : d.pending = c.pending := by
    obtain ⟨p, -, -, rfl⟩ := h
    rfl
  unfold handleRead
  rw [hpending]
  exact hfuel _ _ _ h

theorem handleEvents_sameBut (active : EventMask) {t : List Effect} {c d : Conn}
    (h : SameBut t c d) :
    SameBut t (handleEvents fs before active c) (handleEvents fs before active d) := by
  unfold handleEvents
  split
  · exact h
  · have h1 : SameBut t (if active.epollout then handleWrite c else c)
        (if active.epollout then handleWrite d else d) := by
      split
      · exact neutral_handleWrite.sameBut h
      · exact h
    dsimp only
    refine neutral_handleCurrentConn.sameBut ?_
    split
    · exact handleRead_sameBut fs before h1
    · exact h1

end

/-! ## What a connection shows -/

/-- What one event shows of a connection. -/
structure Observation where
  /-- the requests, the bytes handed to `write` and the calls on the loop -/
  trace : List Effect
  hasError : Bool
  connectionState : ConnectionState

/-- What a sequence of events shows, each with `to_listen_events_` zeroed before it. -/
def observe : List Dispatch → Http → List Observation
  | [], _ => []
  | d :: ds, h =>
    ⟨(d.run h).trace, (d.run h).http.hasError, (d.run h).http.connectionState⟩ ::
      observe ds (d.run h).http

/-- **A hidden past shows in no event.** -/
theorem observe_after : ∀ (ds : List Dispatch) (h : Http) (p : Past) (ev : EventMask),
    p.Hidden h → observe ds ({ h with toListenEvents := ev }.after p) = observe ds h
  | [], _, _, _, _ => rfl
  | d :: ds, h, p, ev, hh => by
    have hstart : SameBut [] (d.start h) (d.start ({ h with toListenEvents := ev }.after p)) :=
      ⟨⟨p.method, p.httpVersion, []⟩, rfl, hh, rfl⟩
    obtain ⟨q, hq, hhidden, hrun⟩ := handleEvents_sameBut d.fs d.before d.active hstart
    have hrun' : d.run ({ h with toListenEvents := ev }.after p) = (d.run h).after q := hrun
    have ih := observe_after ds (d.run h).http q (d.run h).http.toListenEvents hhidden
    rw [observe, observe, hrun']
    congr 1
    show Observation.mk (q.trace ++ (d.run h).trace) _ _ = _
    rw [hq]
    rfl

/-! ## Reuse -/

theorem preserved_keepAlive (fs : FileSystem) :
    Preserved fs fun c => c.http.keepAlive = true where
  parsed _ _ _ h _ hf := hf.keepAlive.trans h
  flush _ h _ _ := h
  listen _ _ h := h
  served c data h _ _ _ := by
    show (wantsKeepAlive _ || c.http.keepAlive) = true
    rw [h, Bool.or_true]
  reset _ h _ _ := h
  malformed _ h _ := h
  refused c h _ _ _ := by
    show (wantsKeepAlive _ || c.http.keepAlive) = true
    rw [h, Bool.or_true]
  seperateTimer _ h := h
  update _ _ _ h _ _ := h
  close _ h _ := h

/-- `keep_alive_` stays as `HandleNewConn` set it. -/
theorem session_keepAlive {s : Session} (hs : sessions.Reachable s) : s.http.keepAlive = true := by
  refine hs.invariant (I := fun s => s.http.keepAlive = true) ?_ ?_
  · rintro s rfl
    rfl
  · rintro s d t hr hk ⟨hopen, -, rfl⟩
    exact (preserved_keepAlive d.fs).run ((session_live hr).resolve_right hopen) hk

/--
**A reused connection behaves like a new one.** `reset c` is what `HandleRead` returns when it has
finished a request and finds no further bytes in its buffer.
-/
theorem reused_like_new {s : Session} (hs : sessions.Reachable s)
    (hopen : s.http.connectionState ≠ .disconnected) (d : Dispatch) {c : Conn}
    (hread : handleRead d.fs d.before (d.beforeRead s.http) = reset c)
    (hconn : c.http.connectionState = .connected) (herr : c.http.hasError = false)
    (hin : c.http.readBuffer = []) (hout : c.http.writeBuffer = []) (later : List Dispatch) :
    observe later (reset c).http = observe later (Http.construct true) := by
  have hlive := (session_live hs).resolve_right hopen
  have hkeep : c.http.keepAlive = true := by
    have hI := preserved_keepAlive d.fs
    have hafter := hI.handleRead d.before (hlive.beforeRead d)
      (hI.beforeRead (session_keepAlive hs))
    rw [hread] at hafter
    exact hafter
  have heq : (reset c).http = ({ Http.construct true with
      toListenEvents := c.http.toListenEvents } : Http).after
        ⟨c.http.method, c.http.httpVersion, []⟩ := by
    simp only [reset, Conn.emit_http, Http.after, Http.construct, hconn, herr, hin, hout, hkeep]
  rw [heq]
  exact observe_after later (Http.construct true) _ _ (Or.inl rfl)

/-- What `HandleRead` makes of a plain request on a new connection. -/
def afterPlainRequest : Conn :=
  handleRead .blank 0
    ((Dispatch.bringing .blank plainRequest).beforeRead (Session.opened true).http)

/-- A second plain request is served as the first one is. -/
theorem reused_plainRequest :
    observe [.bringing .blank plainRequest] afterPlainRequest.http =
      observe [.bringing .blank plainRequest] (Http.construct true) :=
  reused_like_new (.init rfl) (by decide) (.bringing .blank plainRequest)
    (c := { afterPlainRequest with trace := afterPlainRequest.trace.dropLast }) rfl (by decide)
    (by decide) (by decide) (by decide) _

end FlashWeb
