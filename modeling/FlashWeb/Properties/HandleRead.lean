import FlashWeb.Http.Handlers

/-!
# What one activation of `HandleRead` can do

`HandleRead` reads, parses as far as the bytes go, and acts on what it found. Parsing only touches
the parser's fields, so an activation has three outcomes (`readAndParse_parsed`): it waits for more
bytes, it rejects the input, or it has a complete request. `ReadRun` follows the activations of one
call through to the end, and `handleRead_run` says that `handleRead` computes it: the recursion ends
because every activation but the first takes the delimiter of a request line out of the buffer. The
first one takes bytes too if it finds the parser as an event leaves it (`Http.Resumes`).
-/

namespace FlashWeb

section

variable (fs : FileSystem) (before : UInt8)

/-! ## Parsing touches only the parser's fields -/

/-- The fields that parsing leaves alone. -/
structure ParserFrame (h p : Http) : Prop where
  writeBuffer : p.writeBuffer = h.writeBuffer
  keepAlive : p.keepAlive = h.keepAlive
  connectionState : p.connectionState = h.connectionState
  hasError : p.hasError = h.hasError
  toListenEvents : p.toListenEvents = h.toListenEvents
  shrinks : p.readBuffer.length ≤ h.readBuffer.length

theorem ParserFrame.trans {h p q : Http} (hp : ParserFrame h p) (hq : ParserFrame p q) :
    ParserFrame h q where
  writeBuffer := hq.writeBuffer.trans hp.writeBuffer
  keepAlive := hq.keepAlive.trans hp.keepAlive
  connectionState := hq.connectionState.trans hp.connectionState
  hasError := hq.hasError.trans hp.hasError
  toListenEvents := hq.toListenEvents.trans hp.toListenEvents
  shrinks := hq.shrinks.trans hp.shrinks

/-- The states `process_state_` has between two activations. -/
def ProcessState.Between (s : ProcessState) : Prop :=
  s = .stateParseUri ∨ s = .stateParseHeader ∨ s = .stateParseBody

/-- `ParseHeaders` changes the buffer, the header state and the header map. -/
theorem parseHeaders_frame (h : Http) :
    ∃ buf st kv, buf.length ≤ h.readBuffer.length ∧
      (parseHeaders before h).2 =
        { h with readBuffer := buf, headerLineState := st, headerKv := kv } := by
  unfold parseHeaders
  cases headerLoop before h.readBuffer h.readBuffer (HeaderLoop.enter h) with
  | error l => exact ⟨h.readBuffer, l.headerLineState, l.headerKv, le_rfl, rfl⟩
  | ok l =>
    dsimp only
    split
    · exact ⟨h.readBuffer.drop l.i, _, _, by simp, rfl⟩
    · exact ⟨h.readBuffer.drop l.nowReadLineBegin, _, _, by simp, rfl⟩

/-- The connection with other bytes queued and another mask. -/
def Http.withQueue (h : Http) (queue : Bytes) (events : EventMask) : Http :=
  { h with writeBuffer := queue, toListenEvents := events }

theorem parseUri_withQueue (h : Http) (queue : Bytes) (events : EventMask) :
    parseUri (h.withQueue queue events) =
      ((parseUri h).1, (parseUri h).2.withQueue queue events) := by
  rcases parseUri_cases h with ⟨hd, heq⟩ | ⟨line, rest, hl, hbuf, heq⟩
  · rw [heq, parseUri_again (show lineDelimiter ∉ (h.withQueue queue events).readBuffer from hd)]
  · rw [heq, parseUri_append (h.withQueue queue events) hl hbuf]
    rcases parseHeaderLine_spec line with ⟨m, path, v, hline⟩ | ⟨m, path, hline⟩
    · rw [hline, hline]
      rfl
    · rw [hline, hline]
      rfl

theorem parseHeaders_withQueue (h : Http) (queue : Bytes) (events : EventMask) :
    parseHeaders before (h.withQueue queue events) =
      ((parseHeaders before h).1, (parseHeaders before h).2.withQueue queue events) := by
  have henter : HeaderLoop.enter (h.withQueue queue events) = HeaderLoop.enter h := rfl
  have hbuf : (h.withQueue queue events).readBuffer = h.readBuffer := rfl
  unfold parseHeaders
  rw [henter, hbuf]
  cases headerLoop before h.readBuffer h.readBuffer (HeaderLoop.enter h) with
  | error l => rfl
  | ok l =>
    dsimp only
    split <;> rfl

/-! ## Where a parser at rest goes on -/

/-- The parser's fields fit together, as they do between two activations. -/
inductive Http.Resumes (h : Http) : Prop where
  | uri : h.processState = .stateParseUri → h.headerLineState = .hStart → Resumes h
  | header : h.processState = .stateParseHeader → h.method ≠ none →
      h.headerLineState ≠ .hEndLf → Resumes h
  | body : h.processState = .stateParseBody → Resumes h

/-- Parsing came to rest, or took bytes out: `unread` of `total` are still to be delivered. -/
structure Progress (total unread : Nat) (p : Http) : Prop where
  resumes : p.processState.Between → p.Resumes
  shorter : p.processState = .stateProcess → p.readBuffer.length + unread < total

theorem Http.Resumes.between {h : Http} (hr : h.Resumes) : h.processState.Between := by
  cases hr with
  | uri hs => exact Or.inl hs
  | header hs => exact Or.inr (Or.inl hs)
  | body hs => exact Or.inr (Or.inr hs)

/-- Only three fields say where the parser goes on. -/
theorem Http.Resumes.of_same {h p : Http} (hr : h.Resumes) (hs : p.processState = h.processState)
    (hst : p.headerLineState = h.headerLineState) (hm : p.method = h.method) : p.Resumes := by
  cases hr with
  | uri h1 h2 => exact .uri (hs.trans h1) (hst.trans h2)
  | header h1 h2 h3 => exact .header (hs.trans h1) (hm ▸ h2) (hst ▸ h3)
  | body h1 => exact .body (hs.trans h1)

theorem Http.Resumes.of_uri {h : Http} (hr : h.Resumes) (hs : h.processState = .stateParseUri) :
    h.headerLineState = .hStart := by
  cases hr with
  | uri _ hst => exact hst
  | header hs' => simp [hs] at hs'
  | body hs' => simp [hs] at hs'

theorem Http.Resumes.of_header {h : Http} (hr : h.Resumes)
    (hs : h.processState = .stateParseHeader) : h.method ≠ none ∧ h.headerLineState ≠ .hEndLf := by
  cases hr with
  | uri hs' => simp [hs] at hs'
  | header _ hm hst => exact ⟨hm, hst⟩
  | body hs' => simp [hs] at hs'

/-- The parser is at rest. -/
theorem Progress.of_resumes {total unread : Nat} {p : Http} (hr : p.Resumes) :
    Progress total unread p where
  resumes _ := hr
  shorter hs := by
    rcases hr.between with h | h | h <;> simp [h] at hs

/-- **The three outcomes of parsing.** -/
inductive Parsed (c : Conn) (p : Http) (out : Conn) : Prop where
  | wait : out = { c with http := p } → p.processState.Between → Parsed c p out
  | malformed : out = reject { c with http := p } → Parsed c p out
  | ready : out = stageProcess fs { c with http := p } → p.processState = .stateProcess →
      p.method = some .methodGet → Parsed c p out

/-- Only the fields that parsing leaves alone matter. -/
theorem Parsed.congr {c c' : Conn} {p : Http} {out : Conn} (h : Parsed fs c p out)
    (hc : ({ c with http := p } : Conn) = { c' with http := p }) : Parsed fs c' p out := by
  cases h with
  | wait hout hb => exact .wait (hout.trans hc) hb
  | malformed hout => exact .malformed (hout.trans (congrArg reject hc))
  | ready hout hs hm => exact .ready (hout.trans (congrArg (stageProcess fs) hc)) hs hm

theorem stageProcess_between {c : Conn} (hb : c.http.processState.Between) :
    stageProcess fs c = c := by
  unfold stageProcess
  rw [if_neg]
  rcases hb with h | h | h <;> simp [h]

theorem stageHeader_parsed (c : Conn) (hb : c.http.processState.Between) :
    ∃ p, ParserFrame c.http p ∧ Parsed fs c p (stageHeader fs before c) ∧
      (c.http.Resumes → Progress c.http.readBuffer.length 0 p) := by
  unfold stageHeader
  split
  · next hs =>
    obtain ⟨buf, st, kv, hlen, hfr⟩ := parseHeaders_frame before c.http
    have hprogress := fun hr : c.http.Resumes => @parseHeaders_progress before _ (hr.of_header hs).2
    cases hp : parseHeaders before c.http with
    | mk verdict p =>
      rw [hp] at hfr hprogress
      dsimp only at hfr
      have hframe : ParserFrame c.http p := by
        rw [hfr]
        exact ⟨rfl, rfl, rfl, rfl, rfl, hlen⟩
      have hpstate : p.processState = .stateParseHeader := by rw [hfr]; exact hs
      have hmethod : p.method = c.http.method := by rw [hfr]
      have hrest : verdict ≠ .parseHeaderSuccess → c.http.Resumes →
          Progress c.http.readBuffer.length 0 p := fun hv hr =>
        .of_resumes (.header hpstate (hmethod ▸ (hr.of_header hs).1) ((hprogress hr).1 hv))
      cases verdict with
      | parseHeaderAgain =>
        exact ⟨p, hframe, .wait rfl (Or.inr (Or.inl hpstate)), hrest (by simp)⟩
      | parseHeaderError => exact ⟨p, hframe, .malformed rfl, hrest (by simp)⟩
      | parseHeaderSuccess =>
        dsimp only
        cases hm : p.method with
        | none =>
          refine ⟨p, hframe, .wait ?_ (Or.inr (Or.inl hpstate)),
            fun hr => absurd (hmethod.symm.trans hm) (hr.of_header hs).1⟩
          exact stageProcess_between fs (Or.inr (Or.inl hpstate))
        | some m =>
          cases m with
          | methodPost =>
            refine ⟨{ p with processState := .stateParseBody }, hframe.trans
              ⟨rfl, rfl, rfl, rfl, rfl, le_rfl⟩, .wait ?_ (Or.inr (Or.inr rfl)),
              fun _ => .of_resumes (.body rfl)⟩
            exact stageProcess_between fs (Or.inr (Or.inr rfl))
          | methodGet =>
            exact ⟨{ p with processState := .stateProcess }, hframe.trans
              ⟨rfl, rfl, rfl, rfl, rfl, le_rfl⟩, .ready rfl rfl hm,
              fun hr => ⟨fun hb => by simp [ProcessState.Between] at hb,
                fun _ => (hprogress hr).2 rfl⟩⟩
  · next hs =>
    refine ⟨c.http, ⟨rfl, rfl, rfl, rfl, rfl, le_rfl⟩, .wait ?_ hb, .of_resumes⟩
    exact stageProcess_between fs hb

/-- Between two activations the parser's fields say what comes next; `STATE_PARSE_URI` first. -/
theorem stageUri_parsed (c : Conn) (hb : c.http.processState.Between) :
    ∃ p, ParserFrame c.http p ∧ Parsed fs c p (stageUri fs before c) ∧
      (c.http.processState = .stateParseUri → p.processState = .stateProcess →
        p.readBuffer.length < c.http.readBuffer.length) ∧
      (c.http.Resumes → Progress c.http.readBuffer.length 0 p) := by
  unfold stageUri
  split
  · next hs =>
    rcases parseUri_cases c.http with ⟨_, heq⟩ | ⟨line, rest, _, hbuf, heq⟩
    · rw [heq]
      exact ⟨c.http, ⟨rfl, rfl, rfl, rfl, rfl, le_rfl⟩, .wait rfl hb,
        fun h h' => by simp [h] at h', .of_resumes⟩
    · have hlt : rest.length < c.http.readBuffer.length := by
        rw [hbuf]
        simp only [List.length_append, List.length_cons]
        omega
      have hcut : ∀ m path v, ParserFrame c.http
          (({ c.http with readBuffer := rest } : Http).setLine m path v) :=
        fun _ _ _ => ⟨rfl, rfl, rfl, rfl, rfl, hlt.le⟩
      rcases parseHeaderLine_spec line with ⟨m, path, v, hl⟩ | hl
      · rw [heq, hl]
        obtain ⟨p, hframe, hparsed, hprogress⟩ := stageHeader_parsed fs before
          (({ c with http := ({ c.http with readBuffer := rest } : Http).setLine (some m) path v }
            : Conn).enter .stateParseHeader) (Or.inr (Or.inl rfl))
        refine ⟨p, (hcut (some m) path v).trans ⟨hframe.writeBuffer, hframe.keepAlive,
          hframe.connectionState, hframe.hasError, hframe.toListenEvents, hframe.shrinks⟩, ?_,
          fun _ _ => lt_of_le_of_lt hframe.shrinks hlt, fun hr => ?_⟩
        · exact hparsed.congr fs rfl
        · -- the header of the request line just read begins in `H_START`
          have hstart : c.http.headerLineState ≠ .hEndLf := by
            rw [hr.of_uri hs]
            simp
          obtain ⟨h1, h2⟩ := hprogress (.header rfl (Option.some_ne_none m) hstart)
          exact ⟨h1, fun h => lt_trans (h2 h) hlt⟩
      · obtain ⟨m, path, hl⟩ := hl
        rw [heq, hl]
        refine ⟨_, hcut _ _ c.http.httpVersion, .malformed rfl, fun _ h' => ?_,
          fun hr => .of_resumes (.uri hs (hr.of_uri hs))⟩
        change c.http.processState = .stateProcess at h'
        simp [hs] at h'
  · next hs =>
    obtain ⟨p, hframe, hparsed, hprogress⟩ := stageHeader_parsed fs before c hb
    exact ⟨p, hframe, hparsed, fun h => absurd h hs, hprogress⟩

/-! ## One activation -/

/-- A connection that still takes events: not closed, not failed, and its parser at rest. -/
structure Http.Live (h : Http) : Prop where
  noError : h.hasError = false
  notClosed : h.connectionState ≠ .disconnected
  between : h.processState.Between

/-- The fields of `Http` that reading and parsing leave alone. -/
structure ReadFrame (h p : Http) : Prop where
  writeBuffer : p.writeBuffer = h.writeBuffer
  keepAlive : p.keepAlive = h.keepAlive
  hasError : p.hasError = h.hasError
  toListenEvents : p.toListenEvents = h.toListenEvents
  connectionState : p.connectionState = h.connectionState ∨ p.connectionState = .disconnecting

/-- Reading closes nothing. -/
theorem ReadFrame.notClosed {h p : Http} (hf : ReadFrame h p)
    (hopen : h.connectionState ≠ .disconnected) : p.connectionState ≠ .disconnected := by
  rcases hf.connectionState with hst | hst <;> rw [hst]
  · exact hopen
  · simp

/-- The stages, on what was read into `buf`; `st` is the connection's state by then. -/
theorem stageUri_read (c : Conn) (hl : c.http.Live) {buf : Bytes} {rs : List ReadResult}
    {st : ConnectionState} (hst : st = c.http.connectionState ∨ st = .disconnecting)
    (hpend : buf.length + (delivered rs).length = c.pending) :
    ∃ p, ReadFrame c.http p ∧
      Parsed fs { c with reads := rs } p (stageUri fs before
        { c with http := { c.http with readBuffer := buf, connectionState := st }, reads := rs }) ∧
      p.readBuffer.length + (delivered rs).length ≤ c.pending ∧
      (c.http.processState = .stateParseUri → p.processState = .stateProcess →
        p.readBuffer.length + (delivered rs).length < c.pending) ∧
      (c.http.Resumes → Progress c.pending (delivered rs).length p) := by
  obtain ⟨p, hframe, hparsed, hlt, hprogress⟩ := stageUri_parsed fs before
    { c with http := { c.http with readBuffer := buf, connectionState := st }, reads := rs }
    hl.between
  have hshrinks := hframe.shrinks
  refine ⟨p, ⟨hframe.writeBuffer, hframe.keepAlive, hframe.hasError, hframe.toListenEvents,
    by rw [hframe.connectionState]; exact hst⟩, ?_, ?_, ?_, ?_⟩
  · exact hparsed.congr fs rfl
  · dsimp only at hshrinks
    omega
  · intro h h'
    have := hlt h h'
    dsimp only at this
    omega
  · intro hr
    obtain ⟨h1, h2⟩ := hprogress (hr.of_same rfl rfl rfl)
    dsimp only at h2
    exact ⟨h1, fun h => by have := h2 h; omega⟩

/-- **What `HandleRead` has after its `do { … } while (false)`.** -/
theorem readAndParse_parsed (c : Conn) (hl : c.http.Live) :
    ∃ p rs, ReadFrame c.http p ∧
      Parsed fs { c with reads := rs } p (readAndParse fs before c) ∧
      p.readBuffer.length + (delivered rs).length ≤ c.pending ∧
      (c.http.processState = .stateParseUri → p.processState = .stateProcess →
        p.readBuffer.length + (delivered rs).length < c.pending) ∧
      (c.http.Resumes → Progress c.pending (delivered rs).length p) ∧
      (c.http.connectionState = .disconnecting →
        p = { c.http with readBuffer := [] } ∧
        readAndParse fs before c = { c with http := p, reads := rs }) := by
  obtain ⟨got, hbuf, hdel, -⟩ := readLoop_spec c.reads 0 c.http.readBuffer
  have hpend : (readFromFd c.reads c.http.readBuffer).inBuffer.length +
      (delivered (readFromFd c.reads c.http.readBuffer).reads).length = c.pending := by
    unfold Conn.pending readFromFd
    rw [hbuf, hdel]
    simp only [List.length_append]
    omega
  unfold readAndParse
  generalize readFromFd c.reads c.http.readBuffer = r at hpend
  dsimp only
  split
  · -- what is read on a connection that is `DISCONNECTING` is thrown away
    next hd =>
    refine ⟨{ c.http with readBuffer := [] }, r.reads, ⟨rfl, rfl, rfl, rfl, Or.inl rfl⟩,
      .wait rfl hl.between, ?_, fun h h' => ?_, fun hr => .of_resumes (hr.of_same rfl rfl rfl),
      fun _ => ⟨rfl, rfl⟩⟩
    · simp only [List.length_nil]
      omega
    · change c.http.processState = .stateProcess at h'
      simp [h] at h'
  · next hd =>
    split
    · refine ⟨{ c.http with readBuffer := r.inBuffer }, r.reads, ⟨rfl, rfl, rfl, rfl, Or.inl rfl⟩,
        .malformed rfl, hpend.le, fun h h' => ?_,
        fun hr => .of_resumes (hr.of_same rfl rfl rfl), fun h => absurd h hd⟩
      change c.http.processState = .stateProcess at h'
      simp [h] at h'
    · split
      · -- the end of the stream, with nothing before it or with bytes
        split
        · refine ⟨{ c.http with readBuffer := r.inBuffer, connectionState := .disconnecting },
            r.reads, ⟨rfl, rfl, rfl, rfl, Or.inr rfl⟩, .wait rfl hl.between, hpend.le,
            fun h h' => ?_, fun hr => .of_resumes (hr.of_same rfl rfl rfl),
            fun h => absurd h hd⟩
          change c.http.processState = .stateProcess at h'
          simp [h] at h'
        · obtain ⟨p, h1, h2, h3, h4, h5⟩ := stageUri_read fs before c hl (Or.inr rfl) hpend
          exact ⟨p, r.reads, h1, h2, h3, h4, h5, fun h => absurd h hd⟩
      · obtain ⟨p, h1, h2, h3, h4, h5⟩ := stageUri_read fs before c hl (Or.inl rfl) hpend
        exact ⟨p, r.reads, h1, h2, h3, h4, h5, fun h => absurd h hd⟩

/-! ## Writing touches only the buffer and the mask -/

theorem flush_frame (c : Conn) : ∃ wb, (flush c).http = { c.http with writeBuffer := wb } ∧
    (flush c).reads = c.reads :=
  ⟨_, rfl, rfl⟩

theorem handleWrite_frame (c : Conn) :
    ∃ wb ev, (handleWrite c).http = { c.http with writeBuffer := wb, toListenEvents := ev } ∧
      (handleWrite c).reads = c.reads := by
  unfold handleWrite
  split
  · obtain ⟨wb₁, h₁, r₁⟩ := flush_frame c
    obtain ⟨wb₂, h₂, r₂⟩ := flush_frame (flush c)
    dsimp only
    split
    · exact ⟨wb₂, _, by rw [Conn.listen, h₂, h₁], r₂.trans r₁⟩
    · exact ⟨wb₂, c.http.toListenEvents, by rw [h₂, h₁], r₂.trans r₁⟩
  · exact ⟨c.http.writeBuffer, c.http.toListenEvents, rfl, rfl⟩

theorem writeResponse_frame (c : Conn) :
    ∃ wb ev, (writeResponse c).http = { c.http with writeBuffer := wb, toListenEvents := ev } ∧
      (writeResponse c).reads = c.reads := by
  unfold writeResponse
  split
  · exact handleWrite_frame c
  · exact ⟨c.http.writeBuffer, c.http.toListenEvents, rfl, rfl⟩

/-! ## A whole call -/

/-- The connection once what was read is parsed into `p`. -/
def Conn.parsed (c : Conn) (p : Http) (rs : List ReadResult) : Conn :=
  { c with http := p, reads := rs }

/-- The connection after a request that was answered with `data`. -/
def served (c : Conn) (data : Bytes) : Conn :=
  { c with http := { c.http with
      writeBuffer := c.http.writeBuffer ++ okResponse c.http.request data
      keepAlive := c.http.keptAlive c.http.headerKv
      processState := .stateFinish } }.emit (.process c.http.request true)

/-- The connection after a request for a file that cannot be read. -/
def refused (c : Conn) : Conn :=
  (handleError 404 (text "Not Found!") { c with http := { c.http with
      writeBuffer := fs.leftover c.http.request c.http.writeBuffer
      keepAlive := c.http.keptAlive c.http.headerKv } }).emit (.process c.http.request false)

theorem stageProcess_served {c : Conn} {data : Bytes} (hs : c.http.processState = .stateProcess)
    (hm : c.http.method = some .methodGet) (hf : fs.file (cStr c.http.filePath) = some data) :
    stageProcess fs c = served c data := by
  unfold stageProcess
  rw [if_pos hs, processRequest_served (by rw [hm]; simp) hf]
  rfl

theorem stageProcess_refused {c : Conn} (hs : c.http.processState = .stateProcess)
    (hm : c.http.method = some .methodGet) (hf : fs.file (cStr c.http.filePath) = none) :
    stageProcess fs c = badRequest (refused fs c) := by
  unfold stageProcess
  rw [if_pos hs, processRequest_refused (by rw [hm]; simp) hf]
  rfl

/-- A request that is complete and for `METHOD_GET`. -/
structure Http.Ready (p : Http) : Prop where
  processState : p.processState = .stateProcess
  method : p.method = some .methodGet

/-- The last activation of a call of `HandleRead`, from `c` to the return. -/
inductive Stops (c : Conn) : Conn → Prop where
  | malformed (p : Http) (rs : List ReadResult) : ReadFrame c.http p →
      c.http.connectionState ≠ .disconnecting →
      Stops c (handleClose (reject (c.parsed p rs)))
  | refused (p : Http) (rs : List ReadResult) : ReadFrame c.http p →
      c.http.connectionState ≠ .disconnecting → p.Ready → fs.file (cStr p.filePath) = none →
      Stops c (handleClose (badRequest (refused fs (c.parsed p rs))))
  | waiting (p : Http) (rs : List ReadResult) : ReadFrame c.http p →
      p.processState.Between →
      Stops c
        ((writeResponse (c.parsed p rs)).listen { c.http.toListenEvents with epollin := true })
  | last (p : Http) (rs : List ReadResult) (data : Bytes) : ReadFrame c.http p →
      c.http.connectionState ≠ .disconnecting → p.Ready →
      fs.file (cStr p.filePath) = some data →
      p.readBuffer = [] ∨ p.connectionState = .disconnecting →
      Stops c (reset (writeResponse (served (c.parsed p rs) data)))

/-- An activation that answers a request and goes on with what is left in the buffer. -/
inductive GoesOn (c : Conn) : Conn → Prop where
  | intro (p : Http) (rs : List ReadResult) (data : Bytes) : ReadFrame c.http p →
      c.http.connectionState ≠ .disconnecting → p.Ready →
      fs.file (cStr p.filePath) = some data →
      p.readBuffer ≠ [] → p.connectionState ≠ .disconnecting →
      GoesOn c (reset (writeResponse (served (c.parsed p rs) data)))

/-- One call of `HandleRead`, activation by activation. -/
inductive ReadRun : Conn → Conn → Prop where
  | stop {c out : Conn} : Stops fs c out → ReadRun c out
  | next {c c' out : Conn} : GoesOn fs c c' → ReadRun c' out → ReadRun c out

/-- What is left for the activations after the one that starts in `c`. -/
def Conn.budget (c : Conn) : Nat :=
  c.pending + if c.http.processState = .stateParseUri then 0 else 1

/-- The end of an activation that answers a request, whatever the peer takes of the response. -/
structure Finished (c out : Conn) : Prop where
  readBuffer : (reset out).http.readBuffer = c.http.readBuffer
  connectionState : (reset out).http.connectionState = c.http.connectionState
  reads : (reset out).reads = c.reads
  noError : out.http.hasError = c.http.hasError
  processState : out.http.processState = .stateFinish

theorem writeResponse_finished (c : Conn) (data : Bytes) :
    Finished c (writeResponse (served c data)) := by
  obtain ⟨wb, ev, hw, hr⟩ := writeResponse_frame (served c data)
  constructor
  · simp only [reset, Conn.emit_http, hw]
    rfl
  · simp only [reset, Conn.emit_http, hw]
    rfl
  · exact hr
  · rw [hw]
    rfl
  · rw [hw]
    rfl

/-- Between two requests the parser is at rest and the connection takes events. -/
theorem GoesOn.live {c c' : Conn} (h : GoesOn fs c c') (hl : c.http.Live) : c'.http.Live := by
  obtain ⟨p, rs, data, hf, -, -, -, -, -⟩ := h
  have hend := writeResponse_finished (c.parsed p rs) data
  refine ⟨hend.noError.trans (hf.hasError.trans hl.noError), ?_, Or.inl rfl⟩
  rw [hend.connectionState]
  exact hf.notClosed hl.notClosed

/-- **One activation either ends the call or leaves strictly less for the next one.** -/
theorem handleReadBody_step (c : Conn) (hl : c.http.Live) :
    (∃ out, Stops fs c out ∧ (c.http.Resumes → out.http.hasError = false → out.http.Resumes) ∧
        ∀ again, handleReadBody fs before again c = out) ∨
      ∃ c', GoesOn fs c c' ∧ c'.budget < c.budget ∧ (c.http.Resumes → c'.pending < c.pending) ∧
        ∀ again, handleReadBody fs before again c = again c' := by
  obtain ⟨p, rs, hf, hparsed, hle, hlt, hprogress, hd⟩ := readAndParse_parsed fs before c hl
  have herr : p.hasError = false := hf.hasError.trans hl.noError
  simp only [handleReadBody]
  cases hparsed with
  | wait hout hb =>
    obtain ⟨wb, ev, hw, -⟩ := writeResponse_frame (c.parsed p rs)
    have hst : p.connectionState ≠ .disconnected := hf.notClosed hl.notClosed
    have hfin : p.processState ≠ .stateFinish := by rcases hb with h | h | h <;> simp [h]
    replace hout : readAndParse fs before c = c.parsed p rs := hout
    refine Or.inl ⟨_, .waiting p rs hf hb, fun hr _ => ?_, fun again => ?_⟩
    · simp only [Conn.listen, hw]
      exact ((hprogress hr).resumes hb).of_same rfl rfl rfl
    rw [hout, if_pos (show (c.parsed p rs).http.hasError = false from herr)]
    simp only [hw]
    rw [if_neg (fun h => hfin h.2), if_pos ⟨herr, hst⟩]
  | malformed hout =>
    -- what is read on a connection that is `DISCONNECTING` is not parsed
    have hnd : c.http.connectionState ≠ .disconnecting := by
      intro h
      have := congrArg (fun c => c.http.hasError) ((hd h).2.symm.trans hout)
      simp [reject, badRequest, handleError, hf.hasError, hl.noError] at this
    refine Or.inl ⟨_, .malformed p rs hf hnd, fun _ he => ?_, fun again => ?_⟩
    · simp [handleClose, reject, badRequest, handleError] at he
    rw [hout, if_neg (by simp [reject, badRequest, handleError])]
    rfl
  | ready hout hps hm =>
    have hnd : c.http.connectionState ≠ .disconnecting := by
      intro h
      have hp := congrArg (fun h : Http => h.processState) (hd h).1
      rw [hps] at hp
      rcases hl.between with h | h | h <;> simp [h] at hp
    replace hout : readAndParse fs before c = stageProcess fs (c.parsed p rs) := hout
    cases hfile : fs.file (cStr p.filePath) with
    | none =>
      have hstage := stageProcess_refused fs (c := c.parsed p rs) hps hm hfile
      refine Or.inl ⟨_, .refused p rs hf hnd ⟨hps, hm⟩ hfile, fun _ he => ?_, fun again => ?_⟩
      · simp [handleClose, badRequest, handleError] at he
      rw [hout, hstage, if_neg (by simp [badRequest, handleError])]
    | some data =>
      have hstage := stageProcess_served fs (c := c.parsed p rs) hps hm hfile
      have hend := writeResponse_finished (c.parsed p rs) data
      have hserved : (served (c.parsed p rs) data).http.hasError = false := herr
      have hbuf : (reset (writeResponse (served (c.parsed p rs) data))).http.readBuffer =
          p.readBuffer := hend.readBuffer
      have hconn : (reset (writeResponse (served (c.parsed p rs) data))).http.connectionState =
          p.connectionState := hend.connectionState
      have hpending : (reset (writeResponse (served (c.parsed p rs) data))).pending =
          p.readBuffer.length + (delivered rs).length := by
        unfold Conn.pending
        rw [hbuf, hend.reads]
        rfl
      simp only [hout, hstage, if_pos hserved, if_pos
        (And.intro (hend.noError.trans herr) hend.processState), hbuf, hconn]
      -- the next activation starts in `STATE_PARSE_URI`, with fewer bytes
      by_cases hmore : p.readBuffer.length > 0 ∧ p.connectionState ≠ .disconnecting
      · refine Or.inr ⟨_, .intro p rs data hf hnd ⟨hps, hm⟩ hfile
          (List.length_pos_iff.mp hmore.1) hmore.2, ?_, fun hr => ?_, fun again => if_pos hmore⟩
        · have hstate : (reset (writeResponse (served (c.parsed p rs) data))).http.processState =
              .stateParseUri := rfl
          unfold Conn.budget
          rw [hpending, if_pos hstate]
          split
          · next hs => exact hlt hs hps
          · omega
        · rw [hpending]
          exact (hprogress hr).shorter hps
      · refine Or.inl ⟨_, .last p rs data hf hnd ⟨hps, hm⟩ hfile ?_, fun _ _ => .uri rfl rfl,
          fun again => if_neg hmore⟩
        rw [not_and_or, not_not] at hmore
        exact hmore.imp (fun h => List.length_eq_zero_iff.mp (by omega)) id

theorem handleReadFuel_run : ∀ (n : Nat) (c : Conn), c.http.Live → c.budget < n →
    ReadRun fs c (handleReadFuel fs before n c)
  | 0, _, _, hn => absurd hn (Nat.not_lt_zero _)
  | n + 1, c, hl, hn => by
    rcases handleReadBody_step fs before c hl with ⟨out, hs, -, hout⟩ | ⟨c', hg, hlt, -, hout⟩
    · rw [handleReadFuel, hout]
      exact .stop hs
    · rw [handleReadFuel, hout]
      exact .next hg (handleReadFuel_run n c' (hg.live fs hl) (by omega))

/-- More activations than the bytes can feed change nothing. -/
theorem handleReadFuel_enough : ∀ (n m : Nat) (c : Conn), c.http.Live → c.budget < n →
    c.budget < m → handleReadFuel fs before n c = handleReadFuel fs before m c
  | 0, _, _, _, hn, _ => absurd hn (Nat.not_lt_zero _)
  | _, 0, _, _, _, hm => absurd hm (Nat.not_lt_zero _)
  | n + 1, m + 1, c, hl, hn, hm => by
    rcases handleReadBody_step fs before c hl with ⟨out, -, -, hout⟩ | ⟨c', hg, hlt, -, hout⟩
    · rw [handleReadFuel, handleReadFuel, hout, hout]
    · rw [handleReadFuel, handleReadFuel, hout, hout]
      exact handleReadFuel_enough n m c' (hg.live fs hl) (by omega) (by omega)

theorem Conn.budget_lt (c : Conn) : c.budget < c.pending + 2 := by
  unfold Conn.budget
  split <;> omega

/-- **`HandleRead` comes to an end, and this is how.** -/
theorem handleRead_run (c : Conn) (hl : c.http.Live) : ReadRun fs c (handleRead fs before c) :=
  handleReadFuel_run fs before _ c hl c.budget_lt

/-- **`HandleRead` is its body with itself for the recursive call.** -/
theorem handleRead_eq (c : Conn) (hl : c.http.Live) :
    handleRead fs before c = handleReadBody fs before (handleRead fs before) c := by
  unfold handleRead
  rw [handleReadFuel]
  rcases handleReadBody_step fs before c hl with ⟨out, -, -, hout⟩ | ⟨c', hg, hlt, -, hout⟩
  · rw [hout, hout]
  · rw [hout, hout]
    have := c.budget_lt
    exact handleReadFuel_enough fs before _ _ c' (hg.live fs hl) (by omega) c'.budget_lt

end

end FlashWeb
