import FlashWeb.Properties.Pipelining

/-!
# The end of the stream behind the last request

`HandleRead` takes note of the end of the client's stream before it parses, and then does not call
itself for the rest of the buffer. So the request that the parser finds first is still answered, and
nothing behind it is looked at. `end_of_stream` says when that shows: when there is a request whose
answer lets `HandleRead` go on, and behind it anything but the beginning of another request.
-/

namespace FlashWeb

/-! ## What the parser finds next -/

/-- What `ParseHeaders` finds in a connection whose request line is parsed. -/
def Http.nextHeader (before : UInt8) (h : Http) : FirstRequest :=
  match parseHeaders before h with
  | (.parseHeaderAgain, _) => .waiting
  | (.parseHeaderError, _) => .refused
  | (.parseHeaderSuccess, h) =>
    match h.method with
    | some .methodGet => .get h.request h.readBuffer
    | _ => .waiting

/-- What the parser finds in the buffer, from where the activation before left it. -/
def Http.nextRequest (before : UInt8) (h : Http) : FirstRequest :=
  match h.processState with
  | .stateParseUri =>
    match parseUri h with
    | (.parseUriAgain, _) => .waiting
    | (.parseUriError, _) => .refused
    | (.parseUriSuccess, h) => h.nextHeader before
  | .stateParseHeader => h.nextHeader before
  | _ => .waiting

/-- The connection in other states, with the parser's fields as they are. -/
def Http.put (h : Http) (st : ConnectionState) (ps : ProcessState) : Http :=
  { h with connectionState := st, processState := ps }

/-- `ParseHeaders` asks for neither state. -/
theorem parseHeaders_put (before : UInt8) (h : Http) (st : ConnectionState) (ps : ProcessState) :
    parseHeaders before (h.put st ps) =
      ((parseHeaders before h).1, (parseHeaders before h).2.put st ps) := by
  unfold parseHeaders
  rw [show (h.put st ps).readBuffer = h.readBuffer from rfl,
    show HeaderLoop.enter (h.put st ps) = HeaderLoop.enter h from rfl]
  cases headerLoop before h.readBuffer h.readBuffer (HeaderLoop.enter h) with
  | error l => rfl
  | ok l =>
    dsimp only
    split <;> rfl

theorem nextHeader_put (before : UInt8) (h : Http) (st : ConnectionState) (ps : ProcessState) :
    (h.put st ps).nextHeader before = h.nextHeader before := by
  unfold Http.nextHeader
  rw [parseHeaders_put]
  cases parseHeaders before h with
  | mk verdict p => cases verdict <;> rfl

/-- Parsing does not ask whether the client's side is closed. -/
theorem nextRequest_put (before : UInt8) (h : Http) (st : ConnectionState) :
    (h.put st h.processState).nextRequest before = h.nextRequest before := by
  unfold Http.nextRequest
  rw [show (h.put st h.processState).processState = h.processState from rfl]
  cases hs : h.processState with
  | stateParseUri =>
    dsimp only
    rcases parseUri_cases h with ⟨hd, heq⟩ | ⟨line, rest, hl, hb, heq⟩
    · rw [heq, parseUri_again (h := h.put st _) hd]
    · rw [heq, parseUri_append (h.put st _) hl hb]
      rcases parseHeaderLine_spec line with ⟨m, path, v, hline⟩ | ⟨m, path, hline⟩
      · rw [hline, hline]
        exact nextHeader_put before (({ h with readBuffer := rest } : Http).setLine (some m) path v)
          st _
      · rw [hline, hline]
  | stateParseHeader => exact nextHeader_put before h st _
  | stateParseBody => rfl
  | stateProcess => rfl
  | stateFinish => rfl

theorem nextHeader_withQueue (before : UInt8) (h : Http) (queue : Bytes) (events : EventMask) :
    (h.withQueue queue events).nextHeader before = h.nextHeader before := by
  unfold Http.nextHeader
  rw [parseHeaders_withQueue]
  cases parseHeaders before h with
  | mk verdict p => cases verdict <;> rfl

/-- Nor what is queued. -/
theorem nextRequest_withQueue (before : UInt8) (h : Http) (queue : Bytes) (events : EventMask) :
    (h.withQueue queue events).nextRequest before = h.nextRequest before := by
  unfold Http.nextRequest
  rw [show (h.withQueue queue events).processState = h.processState from rfl]
  cases hs : h.processState with
  | stateParseUri =>
    dsimp only
    rw [parseUri_withQueue]
    cases parseUri h with
    | mk verdict p =>
      cases verdict with
      | parseUriAgain => rfl
      | parseUriError => rfl
      | parseUriSuccess => exact nextHeader_withQueue before p queue events
  | stateParseHeader => exact nextHeader_withQueue before h queue events
  | stateParseBody => rfl
  | stateProcess => rfl
  | stateFinish => rfl

/-- Between two requests only the bytes matter. -/
theorem nextRequest_between (before : UInt8) {h : Http} (hs : h.processState = .stateParseUri)
    (hst : h.headerLineState = .hStart) (hkv : h.headerKv = HeaderMap.empty) :
    h.nextRequest before = firstRequest h.readBuffer := by
  unfold Http.nextRequest
  rw [hs]
  dsimp only
  rcases firstRequest_cases h.readBuffer with ⟨hd, hw⟩ | ⟨line, rest, hl, hb, hcut⟩
  · rw [parseUri_again hd, hw]
  · rw [parseUri_append h hl hb]
    rcases hcut with ⟨hrej, hf⟩ | ⟨m, path, v, hacc, hf⟩
    · have hv := hrej { h with readBuffer := rest }
      cases hp : parseHeaderLine line { h with readBuffer := rest } with
      | mk verdict p =>
        rw [hp] at hv
        rw [hf, show verdict = .parseUriError from hv]
    · rw [hacc, hf]
      have hat : ({ h with readBuffer := rest } : Http).setLine (some m) path v =
          (h.setLine (some m) path v).atHeader rest := by
        simp [Http.setLine, Http.atHeader, hst, hkv]
      dsimp only
      rw [hat]
      unfold Http.nextHeader headerRequest
      rcases parseHeaders_atHeader before (h.setLine (some m) path v) rest with
        ⟨hn, he⟩ | ⟨s, r, hrun, he⟩
      · rw [hn]
        cases hp : parseHeaders before ((h.setLine (some m) path v).atHeader rest) with
        | mk verdict p =>
          rw [hp] at he
          rw [show verdict = .parseHeaderError from he]
      · rw [hrun, he, headerResult]
        dsimp only
        by_cases hd : s.phase.Done
        · rw [if_pos hd, if_pos hd]
          cases m <;> rfl
        · rw [if_neg hd, if_neg hd]

/-- What `stageUri` makes of what the parser finds. -/
inductive Finds (fs : FileSystem) (c : Conn) : FirstRequest → Conn → Prop where
  | waiting (p : Http) : ParserFrame c.http p → p.processState.Between →
      Finds fs c .waiting { c with http := p }
  | refused (p : Http) : ParserFrame c.http p → Finds fs c .refused (reject { c with http := p })
  | get (p : Http) : ParserFrame c.http p → p.Ready →
      Finds fs c (.get p.request p.readBuffer) (stageProcess fs { c with http := p })

/-- What is found after some parsing is found before it. -/
theorem Finds.of_frame {fs : FileSystem} {c out : Conn} {h : Http} {f : FirstRequest}
    (hfound : Finds fs { c with http := h } f out) (hf : ParserFrame c.http h) :
    Finds fs c f out := by
  cases hfound with
  | waiting p hp hb => exact .waiting p (hf.trans hp) hb
  | refused p hp => exact .refused p (hf.trans hp)
  | get p hp hr => exact .get p (hf.trans hp) hr

section

variable (fs : FileSystem) (before : UInt8)

theorem stageHeader_finds {c : Conn} (hs : c.http.processState = .stateParseHeader) :
    Finds fs c (c.http.nextHeader before) (stageHeader fs before c) := by
  obtain ⟨buf, st, kv, hlen, hfr⟩ := parseHeaders_frame before c.http
  unfold stageHeader Http.nextHeader
  rw [if_pos hs]
  cases hp : parseHeaders before c.http with
  | mk verdict p =>
    rw [hp] at hfr
    dsimp only at hfr
    have hframe : ParserFrame c.http p := by
      rw [hfr]
      exact ⟨rfl, rfl, rfl, rfl, rfl, hlen⟩
    have hstate : p.processState.Between := by
      rw [hfr]
      exact Or.inr (Or.inl hs)
    cases verdict with
    | parseHeaderAgain => exact .waiting p hframe hstate
    | parseHeaderError => exact .refused p hframe
    | parseHeaderSuccess =>
      dsimp only
      cases hm : p.method with
      | none =>
        dsimp only
        rw [stageProcess_between fs hstate]
        exact .waiting p hframe hstate
      | some m =>
        cases m with
        | methodGet =>
          exact .get { p with processState := .stateProcess }
            (hframe.trans ⟨rfl, rfl, rfl, rfl, rfl, le_rfl⟩) ⟨rfl, hm⟩
        | methodPost =>
          dsimp only
          rw [stageProcess_between fs (Or.inr (Or.inr rfl))]
          exact .waiting _ (hframe.trans ⟨rfl, rfl, rfl, rfl, rfl, le_rfl⟩) (Or.inr (Or.inr rfl))

/-- **The stages act on what the parser finds.** -/
theorem stageUri_finds {c : Conn} (hb : c.http.processState.Between) :
    Finds fs c (c.http.nextRequest before) (stageUri fs before c) := by
  unfold stageUri Http.nextRequest
  rcases hb with hs | hs | hs
  · rw [if_pos hs, hs]
    dsimp only
    rcases parseUri_cases c.http with ⟨-, heq⟩ | ⟨line, rest, -, hbuf, heq⟩
    · rw [heq]
      exact .waiting c.http ⟨rfl, rfl, rfl, rfl, rfl, le_rfl⟩ (Or.inl hs)
    · have hlen : rest.length ≤ c.http.readBuffer.length := by
        rw [hbuf]
        simp only [List.length_append, List.length_cons]
        omega
      rcases parseHeaderLine_spec line with ⟨m, path, v, hl⟩ | ⟨m, path, hl⟩
      · rw [heq, hl]
        -- the header is parsed with `process_state_` moved on
        generalize hg : ({ c.http with readBuffer := rest } : Http).setLine (some m) path v = g
        have hframe : ParserFrame c.http (g.put g.connectionState .stateParseHeader) := by
          rw [← hg]
          exact ⟨rfl, rfl, rfl, rfl, rfl, hlen⟩
        have hfound := stageHeader_finds fs before
          (c := { c with http := g.put g.connectionState .stateParseHeader }) rfl
        rw [nextHeader_put] at hfound
        exact hfound.of_frame hframe
      · rw [heq, hl]
        exact .refused _ ⟨rfl, rfl, rfl, rfl, rfl, hlen⟩
  · rw [if_neg (by rw [hs]; simp), hs]
    exact stageHeader_finds fs before hs
  · rw [if_neg (by rw [hs]; simp), hs, stageHeader, if_neg (by rw [hs]; simp),
      stageProcess_between fs (Or.inr (Or.inr hs))]
    exact .waiting c.http ⟨rfl, rfl, rfl, rfl, rfl, le_rfl⟩ (Or.inr (Or.inr hs))

/-! ## One activation -/

/-- What was done on the way from `c` to `out`. -/
structure Did (c out : Conn) (requests : List (Request × Bool)) (sent : Bytes) : Prop where
  requests : requestsOf out.trace = requestsOf c.trace ++ requests
  sent : bytesSent out.trace = bytesSent c.trace ++ sent

/-- An activation that answers a request leaves the connection so, with `rest` in the buffer. -/
structure Answered (c out : Conn) (r : Request) (rest data : Bytes) : Prop where
  did : Did c out [(r, true)] (c.http.writeBuffer ++ okResponse r data)
  processState : out.http.processState = .stateParseUri
  headerLineState : out.http.headerLineState = .hStart
  headerKv : out.http.headerKv = HeaderMap.empty
  connectionState : out.http.connectionState = c.http.connectionState
  hasError : out.http.hasError = false
  writeBuffer : out.http.writeBuffer = []
  readBuffer : out.http.readBuffer = rest
  reads : out.reads = c.reads
  writes : out.writes = []

theorem Answered.atRest {c out : Conn} {r : Request} {rest data : Bytes}
    (h : Answered c out r rest data) (hc : c.http.connectionState = .connected) :
    out.http.AtRest :=
  ⟨h.processState, h.headerLineState, h.headerKv, h.connectionState.trans hc, h.hasError,
    h.writeBuffer⟩

/-- What an activation of `HandleRead` comes to, by what the parser finds. -/
def Activation (c out : Conn) (again : Conn → Conn) : FirstRequest → Prop
  | .waiting => Did c out [] c.http.writeBuffer
  | .refused => Did c out [] (errorPage 400 (text "Bad Request"))
  | .get r rest =>
    match fs.file (cStr r.filePath) with
    | none => Did c out [(r, false)]
        (errorPage 404 (text "Not Found!") ++ errorPage 400 (text "Bad Request"))
    | some data => ∃ c', Answered c c' r rest data ∧ out =
        if rest.length > 0 ∧ c.http.connectionState ≠ .disconnecting then again c' else c'

/-- `HandleClose` behind a `400` page. -/
theorem failWith_did {c c₁ : Conn} (hw : c₁.writes = []) {reqs : List (Request × Bool)}
    {sent : Bytes} (hd : Did c c₁ reqs sent) :
    Did c c₁.failWith reqs (sent ++ errorPage 400 (text "Bad Request")) := by
  obtain ⟨t, ht, htr, hts⟩ := badRequest_accepted hw
  unfold Conn.failWith handleClose
  rw [ht]
  constructor
  · simp [hd.requests, htr, Effect.processed]
  · simp [hd.sent, hts, Effect.sent]

/-- **One activation, by what the parser finds.** -/
theorem handleReadBody_activation {c c₁ : Conn} (hread : readAndParse fs before c =
    stageUri fs before c₁) (hl : c₁.http.Live) (hw : c₁.writes = []) (again : Conn → Conn) :
    Activation fs c₁ (handleReadBody fs before again c) again (c₁.http.nextRequest before) := by
  have hfound := stageUri_finds fs before hl.between
  rw [← hread] at hfound
  generalize hout : readAndParse fs before c = out at hfound
  generalize c₁.http.nextRequest before = found at hfound
  cases hfound with
  | waiting p hf hb =>
    have he : p.hasError = false := hf.hasError.trans hl.noError
    have hc : p.connectionState ≠ .disconnected := by
      rw [hf.connectionState]
      exact hl.notClosed
    obtain ⟨t, ht, htr, hts⟩ := writeResponse_accepted (c := { c₁ with http := p }) hw he hc
    obtain ⟨ev, hev⟩ := handleReadBody_waiting fs before hout he hc hb again
    rw [hev, ht]
    constructor
    · simp [Conn.listen, htr]
    · rw [hf.writeBuffer] at hts
      simp [Conn.listen, hts]
  | refused p hf =>
    -- nothing goes out but the page
    rw [handleReadBody_failed fs before hout]
    have hnothing : Did c₁ (({ c₁ with http := p } : Conn).emit .malformed) [] [] := by
      constructor
      · simp [Effect.processed]
      · simp [Effect.sent]
    have hwrites : (({ c₁ with http := p } : Conn).emit .malformed).writes = [] := hw
    exact failWith_did hwrites hnothing
  | get p hf hr =>
    unfold Activation
    dsimp only
    have hpath : p.request.filePath = p.filePath := rfl
    rw [hpath]
    cases hfile : fs.file (cStr p.filePath) with
    | none =>
      -- two pages: that of `ProcessRequest` and that of `HandleRead`
      rw [stageProcess_refused fs hr.processState hr.method hfile] at hout
      rw [handleReadBody_failed fs before hout]
      obtain ⟨t, ht, htr, hts⟩ := refused_accepted fs (c := { c₁ with http := p }) hw
      refine failWith_did (by rw [ht]; exact hw) ⟨?_, ?_⟩
      · rw [ht, requestsOf_append, htr]
      · rw [ht, bytesSent_append, hts]
    | some data =>
      rw [stageProcess_served fs hr.processState hr.method hfile] at hout
      have he : p.hasError = false := hf.hasError.trans hl.noError
      obtain ⟨t, ht, htr, hts⟩ := writeResponse_accepted
        (c := served { c₁ with http := p } data) hw he (by
          show p.connectionState ≠ _
          rw [hf.connectionState]
          exact hl.notClosed)
      refine ⟨reset (writeResponse (served { c₁ with http := p } data)), ?_, ?_⟩
      · rw [ht]
        refine ⟨⟨?_, ?_⟩, rfl, rfl, rfl, hf.connectionState, he, rfl, rfl, rfl, hw⟩
        · simp [reset, served, htr, Effect.processed]
        · rw [← hf.writeBuffer]
          simp [reset, hts, served, Effect.sent]
      · rw [handleReadBody_served fs before hout he again, hf.connectionState.symm]

/-! ## With the end of the stream and without it -/

/-- The connection with everything read that was delivered. -/
def Conn.filled (c : Conn) (buf : Bytes) (st : ConnectionState) : Conn :=
  { c with
    http := ({ c.http with readBuffer := buf } : Http).put st c.http.processState
    reads := [] }

theorem readAndParse_delivering {c : Conn} (hc : c.http.connectionState = .connected)
    (hd : Delivering c.reads) : readAndParse fs before c =
      stageUri fs before (c.filled (c.http.readBuffer ++ delivered c.reads) .connected) := by
  have hread := readLoop_delivering [] c.reads 0 c.http.readBuffer hd
  rw [List.append_nil, readLoop] at hread
  unfold readAndParse readFromFd
  rw [hread]
  dsimp only
  rw [if_neg (by rw [hc]; simp), if_neg (by omega), if_neg (by simp), ← hc]
  rfl

theorem readAndParse_ending {c : Conn} {rs : List ReadResult}
    (hc : c.http.connectionState = .connected) (hr : c.reads = rs ++ [.eof]) (hd : Delivering rs)
    (hne : delivered rs ≠ []) : readAndParse fs before c =
      stageUri fs before (c.filled (c.http.readBuffer ++ delivered rs) .disconnecting) := by
  have hlen : (delivered rs).length ≠ 0 := fun h => hne (List.length_eq_zero_iff.mp h)
  unfold readAndParse readFromFd
  rw [hr, readLoop_delivering [.eof] rs 0 c.http.readBuffer hd, readLoop]
  dsimp only
  rw [if_neg (by rw [hc]; simp), if_neg (by omega), if_pos rfl, if_neg (by omega)]
  rfl

/-- What becomes of the bytes is nothing exactly when the parser finds nothing in them. -/
theorem Serves.silent_iff {s w : Bytes} {o : Outcome} (h : Serves fs s o w) :
    o.requests = [] ∧ o.sent = [] ↔ firstRequest s = .waiting := by
  have hpage : errorPage 400 (text "Bad Request") ≠ [] := by decide
  cases h with
  | waiting hf => exact iff_of_true ⟨rfl, rfl⟩ hf
  | refused hf => exact iff_of_false (fun h => hpage h.2) (by rw [hf]; simp)
  | missing hf _ => exact iff_of_false (by simp) (by rw [hf]; simp)
  | served hf _ _ => exact iff_of_false (by simp) (by rw [hf]; simp)

/-- Two runs of `HandleRead` process the same requests and send the same bytes. -/
def SameResponses (c d : Conn) : Prop :=
  requestsOf c.trace = requestsOf d.trace ∧ bytesSent c.trace = bytesSent d.trace

theorem Did.same {c d out out' : Conn} {reqs : List (Request × Bool)} {sent : Bytes}
    (h : Did c out reqs sent) (h' : Did d out' reqs sent) (ht : c.trace = d.trace) :
    SameResponses out out' := by
  constructor
  · rw [h.requests, h'.requests, ht]
  · rw [h.sent, h'.sent, ht]

/-- What the parser finds once everything is read that is delivered. -/
def Conn.nextRequest (c : Conn) : FirstRequest :=
  ({ c.http with readBuffer := c.http.readBuffer ++ delivered c.reads } : Http).nextRequest before

/-- The same bytes, and behind them the end of the stream. -/
def Conn.ending (c : Conn) : Conn := { c with reads := c.reads ++ [.eof] }

theorem handleRead_ending {c : Conn} (hl : c.http.Live)
    (hc : c.http.connectionState = .connected) (hd : Delivering c.reads)
    (hne : delivered c.reads ≠ []) (hw : c.writes = []) :
    SameResponses (handleRead fs before c.ending) (handleRead fs before c) ↔
      ∀ r rest data, c.nextRequest before = .get r rest → fs.file (cStr r.filePath) = some data →
        firstRequest rest = .waiting := by
  rw [handleRead_eq fs before c hl, handleRead_eq fs before c.ending hl]
  generalize hbuf : c.http.readBuffer ++ delivered c.reads = buf
  have hopen := readAndParse_delivering fs before hc hd
  have hend := readAndParse_ending fs before (c := c.ending) hc rfl hd hne
  rw [hbuf] at hopen
  rw [show c.ending.http.readBuffer ++ delivered c.reads = buf from hbuf] at hend
  have hlive : ∀ st, st ≠ ConnectionState.disconnected → (c.filled buf st).http.Live :=
    fun st hst => ⟨hl.noError, hst, hl.between⟩
  have hact := handleReadBody_activation fs before hopen (hlive _ (by simp)) hw
    (handleRead fs before)
  have hact' := handleReadBody_activation fs before hend (hlive _ (by simp)) hw
    (handleRead fs before)
  generalize handleReadBody fs before (handleRead fs before) c = out at hact
  generalize handleReadBody fs before (handleRead fs before) c.ending = out' at hact'
  -- the parser finds the same in both
  have hfound : ∀ st, (c.filled buf st).http.nextRequest before = c.nextRequest before := by
    intro st
    rw [Conn.nextRequest, hbuf]
    exact nextRequest_put before { c.http with readBuffer := buf } st
  rw [hfound] at hact
  rw [show (c.ending.filled buf .disconnecting).http.nextRequest before = c.nextRequest before from
    hfound .disconnecting] at hact'
  cases hn : c.nextRequest before with
  | waiting =>
    rw [hn] at hact hact'
    exact iff_of_true (Did.same hact' hact rfl) fun r rest data h => by simp at h
  | refused =>
    rw [hn] at hact hact'
    exact iff_of_true (Did.same hact' hact rfl) fun r rest data h => by simp at h
  | get r rest =>
    rw [hn] at hact hact'
    unfold Activation at hact hact'
    dsimp only at hact hact'
    cases hfile : fs.file (cStr r.filePath) with
    | none =>
      rw [hfile] at hact hact'
      refine iff_of_true (Did.same hact' hact rfl) fun r' rest' data h hf => ?_
      rw [FirstRequest.get.injEq] at h
      rw [← h.1, hfile] at hf
      simp at hf
    | some data =>
      rw [hfile] at hact hact'
      obtain ⟨c₁, ha, hout⟩ := hact
      obtain ⟨c₂, ha', hout'⟩ := hact'
      have hsame := Did.same ha'.did ha.did rfl
      rw [if_neg (fun h => h.2 rfl)] at hout'
      -- behind the request `HandleRead` goes on, or would have nothing to go on with
      have hrest : SameResponses c₂ out ↔ firstRequest rest = .waiting := by
        by_cases hlen : rest.length > 0
        · rw [if_pos ⟨hlen, by show ConnectionState.connected ≠ _; simp⟩] at hout
          obtain ⟨o, w, hs, hby⟩ := handleRead_serves fs before c₁ (ha.atRest rfl)
            (by rw [ha.reads]; intro r hr; simp [Conn.filled] at hr) ha.writes
          rw [ha.readBuffer, ha.reads, show (c.filled buf .connected).reads = [] from rfl,
            delivered, List.append_nil] at hs
          rw [← hs.silent_iff, SameResponses, hout, hby.requests, hby.sent, hsame.1, hsame.2]
          simp
        · rw [if_neg fun h => hlen h.1] at hout
          have hnil : rest = [] := List.length_eq_zero_iff.mp (by omega)
          rw [hout, hnil]
          exact iff_of_true hsame (firstRequest_again (by simp))
      rw [hout', hrest]
      constructor
      · intro hwait r' rest' data' h _
        rw [FirstRequest.get.injEq] at h
        rw [← h.2]
        exact hwait
      · intro h
        exact h r rest data rfl hfile

end

/-! ## An event that brings the end of the stream -/

/-- The same event, with the end of the client's stream behind its bytes. -/
def Dispatch.ending (d : Dispatch) : Dispatch := { d with reads := d.reads ++ [.eof] }

/-- Writing takes no notice of what can be read. -/
theorem handleWrite_ending (c : Conn) : handleWrite c.ending = (handleWrite c).ending := by
  unfold handleWrite
  dsimp only
  rw [apply_ite Conn.ending, apply_ite Conn.ending]
  rfl

theorem beforeRead_ending (d : Dispatch) (h : Http) :
    d.ending.beforeRead h = (d.beforeRead h).ending := by
  unfold Dispatch.beforeRead
  rw [show d.ending.active = d.active from rfl]
  split
  · exact handleWrite_ending (d.start h)
  · rfl

/-- Before `HandleRead` only bytes are written. -/
theorem beforeRead_frame (d : Dispatch) {h : Http} (hw : d.writes = []) :
    (d.beforeRead h).reads = d.reads ∧ (d.beforeRead h).writes = [] ∧
      (d.beforeRead h).http.connectionState = h.connectionState := by
  unfold Dispatch.beforeRead
  split
  · obtain ⟨wb, ev, hhttp, hreads⟩ := handleWrite_frame (d.start h)
    refine ⟨hreads, ?_, by rw [hhttp]; rfl⟩
    unfold handleWrite
    split
    · dsimp only
      rw [flush_flush_accepted hw]
      split <;> exact hw
    · exact hw
  · exact ⟨rfl, hw, rfl⟩

/--
**When the end of the stream swallows no request.** An event brings bytes to a `CONNECTED`
connection whose peer takes everything. With the end of the stream behind these bytes, `HandleRead`
processes the same requests and sends the same bytes if and only if there is no answered request in
the buffer, or the parser finds nothing but the beginning of another one behind the first.
-/
theorem end_of_stream {s : Session} (hs : sessions.Reachable s)
    (hc : s.http.connectionState = .connected) (d : Dispatch) (hd : Delivering d.reads)
    (hne : delivered d.reads ≠ []) (hw : d.writes = []) :
    SameResponses (handleRead d.fs d.before (d.ending.beforeRead s.http))
        (handleRead d.fs d.before (d.beforeRead s.http)) ↔
      ∀ r rest data, (d.beforeRead s.http).nextRequest d.before = .get r rest →
        d.fs.file (cStr r.filePath) = some data → firstRequest rest = .waiting := by
  have hl : s.http.Live := (session_live hs).resolve_right (by rw [hc]; simp)
  obtain ⟨hreads, hwrites, hconn⟩ := beforeRead_frame d (h := s.http) hw
  rw [beforeRead_ending]
  exact handleRead_ending d.fs d.before (hl.beforeRead d) (hconn.trans hc)
    (by rw [hreads]; exact hd) (by rw [hreads]; exact hne) hwrites

/-- An event that brings one plain request to a new connection. -/
def onePlainRequest : Dispatch := .bringing .blank plainRequest

/-- Nothing stands behind a plain request, so nothing is lost. -/
theorem one_request_not_swallowed :
    SameResponses (handleRead .blank 0 (onePlainRequest.ending.beforeRead Http.fresh))
      (handleRead .blank 0 (onePlainRequest.beforeRead Http.fresh)) := by
  have hfound : (onePlainRequest.beforeRead Http.fresh).nextRequest 0 = .get _ [] := rfl
  refine (end_of_stream (.init rfl) rfl onePlainRequest ?_ (by decide) rfl).mpr ?_
  · intro r hr
    exact Or.inr ⟨plainRequest, List.mem_singleton.mp hr⟩
  · intro r rest data hnext _
    rw [show (onePlainRequest.beforeRead (Session.opened true).http).nextRequest
      onePlainRequest.before = _ from hfound, FirstRequest.get.injEq] at hnext
    rw [← hnext.2]
    exact firstRequest_again (by simp)

/-- An event that brings two requests. -/
def twoRequests : Dispatch :=
  .bringing .blank ⟨plainRequest.bytes ++ laterRequest.bytes, by decide, by decide⟩

/-- The second of two requests is answered without the end of the stream, and lost with it. -/
theorem second_request_swallowed :
    ¬ SameResponses (handleRead .blank 0 (twoRequests.ending.beforeRead Http.fresh))
      (handleRead .blank 0 (twoRequests.beforeRead Http.fresh)) := by
  intro h
  have hlength := congrArg List.length h.1
  revert hlength
  decide

end FlashWeb
