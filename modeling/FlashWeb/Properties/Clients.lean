import FlashWeb.Properties.Decode
import FlashWeb.Properties.HeaderGrammar
import FlashWeb.Properties.LineGrammar
import FlashWeb.Properties.Pipelining
import FlashWeb.Properties.Watched

/-!
# Clients that get what they ask for

A request is understood as long as the first letter `r` in it stands in the name of a header and not
at its end, as in `User-Agent`: the line is cut there, behind everything that is looked for in it,
and the header goes on behind the cut. One byte is lost between two requests that arrive together. A client that keeps to this gets the files it asks for, in order, whatever else the
server does: `clients_get_files` puts the grammars of the two parsers, the run of a connection, the
reader of responses and the loop together.
-/

namespace FlashWeb

open Lib

/-! ## Requests -/

/-- A request whose first letter `r` is inside the name of a header line, split at that letter. -/
structure GetRequest where
  target : Bytes
  version : HttpVersion
  /-- the lines of the header in front of the letter -/
  before : List HeaderLine
  /-- the name of the next line up to the letter -/
  front : Bytes
  /-- that line from behind the letter on -/
  line : HeaderLine
  after : List HeaderLine
  target_plain : SPACE ∉ target ∧ lineDelimiter ∉ target
  before_plain : lineDelimiter ∉ before.flatMap HeaderLine.bytes
  front_plain : lineDelimiter ∉ front
  line_first : line.key.head? ≠ some LF

namespace GetRequest

variable (q : GetRequest)

/-- What is in front of the letter. -/
def cut : Bytes :=
  requestLine .methodGet q.target q.version ++
    ([CR, LF] ++ (q.before.flatMap HeaderLine.bytes ++ q.front))

/-- What is behind the letter. -/
def header : Header where
  breaks := []
  lines := q.line :: q.after
  blank := by simp [Blank]
  first l hl := by
    rw [← Option.some.inj hl]
    exact q.line_first
  nonempty := List.cons_ne_nil _ _

/-- The request as it is sent. -/
def bytes : Bytes := q.cut ++ lineDelimiter :: q.header.bytes

/-- The request as `ProcessRequest` gets it. -/
def request : Request := ⟨some .methodGet, targetPath q.target, q.version, q.header.kv⟩

theorem delimiter_notMem_cut : lineDelimiter ∉ q.cut := by
  have hget : lineDelimiter ∉ HttpMethod.name .methodGet ++ text " /" := by decide
  have hhttp : lineDelimiter ∉ text " HTTP/" := by decide
  have hversion : lineDelimiter ∉ q.version.name := by cases q.version <;> decide
  have hcrlf : lineDelimiter ∉ [CR, LF] := by decide
  simp only [cut, requestLine, List.mem_append, not_or] at hget hhttp hversion hcrlf ⊢
  exact ⟨⟨⟨⟨hget, q.target_plain.2⟩, hhttp⟩, hversion⟩, hcrlf, q.before_plain, q.front_plain⟩

/-- **The grammar of request lines reads the line as the client means it.** -/
theorem requestLine_cut : RequestLine q.cut .methodGet (targetPath q.target) q.version := by
  have hcut : q.cut = (text "GET" ++ text " ") ++ SLASH :: (q.target ++ SPACE ::
      (text "HTTP" ++ SLASH :: (q.version.name ++
        ([CR, LF] ++ (q.before.flatMap HeaderLine.bytes ++ q.front))))) := by
    rw [cut, requestLine_eq]
    simp [HttpMethod.name]
  refine ⟨[], q.cut, rfl, ⟨?_, fun k hk => absurd hk (Nat.not_lt_zero k)⟩, ?_⟩
  · rw [List.length_nil, List.drop_zero, hcut, List.append_assoc]
    exact List.prefix_append _ _
  · rw [hcut]
    exact .full (by decide) q.target_plain.1 (by decide)

/-- **The parser finds the request, and the empty line at its end.** -/
theorem firstRequest_bytes :
    firstRequest q.bytes = .get q.request [] ∧ EndsAtBlankLine q.bytes := by
  have hrun := scan_header q.header
  constructor
  · rw [bytes, firstRequest_accepted q.delimiter_notMem_cut fun h =>
      (parseHeaderLine_iff _ _ _ _ h).mpr q.requestLine_cut, headerRequest, hrun]
    exact if_pos trivial
  · exact ⟨q.cut, q.header.bytes, q.delimiter_notMem_cut, rfl, _, hrun, rfl⟩

/-- Bytes behind a request: all but the first are left for the next one. -/
theorem firstRequest_bytes_append (b : Bytes) :
    firstRequest (q.bytes ++ b) = .get q.request b.tail :=
  (firstRequest_append q.firstRequest_bytes.1 b).1 q.firstRequest_bytes.2

end GetRequest

/-! ## Requests that arrive together -/

/-- Requests that arrive together, each with the byte that is lost behind it. -/
abbrev Batch := List (GetRequest × UInt8)

/-- Bytes behind a request, and the one that is lost. -/
def behind (c : UInt8) (rest : Bytes) : Bytes := if rest = [] then [] else c :: rest

/-- The bytes of the requests and, at the end, `w`. -/
def batchBytes (w : Bytes) : Batch → Bytes
  | [] => w
  | (q, c) :: batch => q.bytes ++ behind c (batchBytes w batch)

theorem GetRequest.firstRequest_behind (q : GetRequest) (c : UInt8) (rest : Bytes) :
    firstRequest (q.bytes ++ behind c rest) = .get q.request rest := by
  rw [behind]
  split
  · next h => rw [q.firstRequest_bytes_append, h, List.tail_nil]
  · rw [q.firstRequest_bytes_append, List.tail_cons]

/-- What each request is answered with. -/
def answers (content : GetRequest → Bytes) (batch : Batch) : List (Request × Bytes) :=
  batch.map fun p => (p.1.request, content p.1)

/-- The response to a request, with the bytes of its file. -/
def response (p : Request × Bytes) : Bytes := okResponse p.1 p.2

/-- Every file that is asked for can be read. -/
def Readable (fs : FileSystem) (content : GetRequest → Bytes) (batch : Batch) : Prop :=
  ∀ p ∈ batch, fs.file (cStr p.1.request.filePath) = some (content p.1)

/-- What a batch comes to when every file can be read. -/
def batchOutcome (content : GetRequest → Bytes) (batch : Batch) : Outcome where
  requests := batch.map fun p => (p.1.request, true)
  sent := (answers content batch).flatMap response
  left := []
  hasError := false

/-- **Every request of a batch is answered with its file, and what is behind them is left.** -/
theorem serves_batch {fs : FileSystem} {content : GetRequest → Bytes} {w : Bytes}
    (hw : lineDelimiter ∉ w) : ∀ {batch : Batch}, Readable fs content batch →
    Serves fs (batchBytes w batch) (batchOutcome content batch) w
  | [], _ => .waiting (firstRequest_again hw)
  | (q, c) :: batch, hfile => by
    have hfirst := q.firstRequest_behind c (batchBytes w batch)
    have hrest := serves_batch hw fun x hx => hfile x (List.mem_cons_of_mem _ hx)
    have h := Serves.served hfirst (hfile _ List.mem_cons_self) hrest
    simpa [batchBytes, batchOutcome, answers, response] using h

/-! ## Back at rest -/

section

variable (fs : FileSystem) (before : UInt8)

/-- `HandleRead` reads the bytes and begins with the first request. -/
theorem readAndParse_atRest {c : Conn} (hr : c.http.AtRest) (hdata : OnlyData c.reads) :
    readAndParse fs before c = stageUri fs before { c with
      http := { c.http with readBuffer := c.http.readBuffer ++ delivered c.reads }
      reads := [] } := by
  unfold readAndParse readFromFd
  rw [readLoop_onlyData c.reads 0 c.http.readBuffer hdata]
  dsimp only
  rw [if_neg (by rw [hr.connectionState]; simp), if_neg (by omega), if_neg (by simp)]

/-- Without a whole request line nothing is parsed. -/
theorem stageUri_again {c : Conn} (hps : c.http.processState = .stateParseUri)
    (hd : lineDelimiter ∉ c.http.readBuffer) : stageUri fs before c = c := by
  unfold stageUri
  rw [if_pos hps, parseUri_again hd]

/--
When no error occurs and no whole line is left, the parser is at a request line. The induction is on
the activations, each of which answers a request.
-/
theorem handleReadFuel_drained {w : Bytes} (hd : lineDelimiter ∉ w) :
    ∀ (n : Nat) (c : Conn) (o : Outcome),
    c.http.AtRest → OnlyData c.reads → c.writes = [] → c.pending < n →
    Serves fs (c.http.readBuffer ++ delivered c.reads) o w → o.hasError = false →
    (handleReadFuel fs before n c).http.processState = .stateParseUri
  | 0, _, _, _, _, _, hn, _, _ => absurd hn (Nat.not_lt_zero _)
  | n + 1, c, o, hr, hdata, hw, hn, hserves, hno => by
    have hread := readAndParse_atRest fs before hr hdata
    have hpend : (c.http.readBuffer ++ delivered c.reads).length < n + 1 := by
      rw [List.length_append]
      exact hn
    generalize c.http.readBuffer ++ delivered c.reads = s at hread hpend hserves
    rw [handleReadFuel]
    have hrs : ({ c.http with readBuffer := s } : Http).AtRest :=
      ⟨hr.processState, hr.headerLineState, hr.headerKv, hr.connectionState, hr.hasError,
        hr.writeBuffer⟩
    cases hserves with
    | waiting hfirst =>
      have hread := hread.trans (stageUri_again fs before hr.processState hd)
      obtain ⟨ev, hev⟩ := handleReadBody_waiting fs before hread hr.hasError hrs.live.notClosed
        (Or.inl hr.processState) (handleReadFuel fs before n)
      rw [hev, writeResponse_nothing (by exact hr.writeBuffer)]
      exact hr.processState
    | refused => exact absurd hno (by simp)
    | missing => exact absurd hno (by simp)
    | @served _ rest _ data r o hfirst hfile hrest =>
      have hstage := stageUri_staged fs before
        { c with http := { c.http with readBuffer := s }, reads := [] } hrs
      rw [← hread] at hstage
      dsimp only at hstage
      generalize hout : readAndParse fs before c = out at hstage
      rw [hfirst] at hstage
      cases hstage with
      | get _ _ hget =>
        generalize hc₁ : ({ c with
          http := ({ c.http with readBuffer := s } : Http).found r rest, reads := [] } : Conn) = c₁
          at hout
        have hbuf : c₁.http.readBuffer = rest := by rw [← hc₁]; rfl
        have hconn : c₁.http.connectionState = .connected := by
          rw [← hc₁]
          exact hr.connectionState
        have he : c₁.http.hasError = false := by
          rw [← hc₁]
          exact hr.hasError
        have hreads : c₁.reads = [] := by rw [← hc₁]
        rw [stageProcess_served fs (by rw [← hc₁]; rfl) (by rw [← hc₁]; exact hget)
          (show fs.file (cStr c₁.http.filePath) = some data by rw [← hc₁]; exact hfile)] at hout
        rw [handleReadBody_connected fs before hout he hconn, hbuf]
        have hw₁ : c₁.writes = [] := by
          rw [← hc₁]
          exact hw
        obtain ⟨c₂, hc₂, hrest₂, hbuf₂, hreads₂, hwrites₂, -, -⟩ := reset_served data hw₁ he hconn
        rw [hc₂]
        -- the next activation, or the return when nothing is left
        split
        · have hbytes : c₂.http.readBuffer ++ delivered c₂.reads = rest := by
            rw [hbuf₂, hbuf, hreads₂, hreads, delivered, List.append_nil]
          have hlt := (firstRequest_get hfirst).2
          refine handleReadFuel_drained hd n c₂ o hrest₂ ?_ hwrites₂ ?_ (hbytes ▸ hrest) hno
          · rw [hreads₂, hreads]
            exact fun r hr => absurd hr List.not_mem_nil
          · unfold Conn.pending
            rw [← List.length_append, hbytes]
            omega
        · exact hrest₂.processState

end

/-! ## One event -/

/-- A connection of a keep-alive client between two requests, with `w` of the next one. -/
structure Http.Awaits (h : Http) (w : Bytes) : Prop where
  atRest : h.AtRest
  keepAlive : h.keepAlive = true
  readBuffer : h.readBuffer = w

/-- The event brings no bytes, and the peer takes everything that is written. -/
structure Idles (d : Dispatch) : Prop where
  epollin : d.active.epollin = false
  epollpri : d.active.epollpri = false
  epollrdhup : d.active.epollrdhup = false
  writes : d.writes = []

/-- Behind `w` the event brings the rest of the batch and `w'`, or no bytes at all. -/
inductive Carries (fs : FileSystem) : Bytes → Dispatch → Batch → Bytes → Prop where
  | bytes {w w' piece : Bytes} {d : Dispatch} {batch : Batch} : Delivers fs d piece →
      w ++ piece = batchBytes w' batch → lineDelimiter ∉ w' → Carries fs w d batch w'
  | idle {w : Bytes} {d : Dispatch} : Idles d → Carries fs w d [] w

/-- The events bring the batches one after the other. -/
inductive Brings (fs : FileSystem) : Bytes → List Dispatch → List Batch → Bytes → Prop where
  | nil {w : Bytes} : Brings fs w [] [] w
  | cons {w w' w'' : Bytes} {d : Dispatch} {batch : Batch} {ds : List Dispatch}
      {batches : List Batch} : Carries fs w d batch w' → Brings fs w' ds batches w'' →
      Brings fs w (d :: ds) (batch :: batches) w''

/-- What is done for a batch, and the connection behind it. -/
structure Carried (content : GetRequest → Bytes) (batch : Batch) (w : Bytes) (out : Conn) :
    Prop where
  awaits : out.http.Awaits w
  requests : requestsOf out.trace = (batchOutcome content batch).requests
  sent : bytesSent out.trace = (batchOutcome content batch).sent

variable {fs : FileSystem} {content : GetRequest → Bytes} {w w' : Bytes}

theorem ServedBy.carried {d : Dispatch} {h : Http} {out : Conn} {batch : Batch}
    (hby : ServedBy (d.start h) out (batchOutcome content batch) w)
    (hps : out.http.processState = .stateParseUri) (hk : out.http.keepAlive = true) :
    Carried content batch w out := by
  obtain ⟨hrest, hbuf⟩ := hby.rest rfl hps
  exact ⟨⟨hrest, hk, hbuf⟩, hby.requests, hby.sent⟩

/-- Behind requests that are answered `HandleRead` is at a request line. -/
theorem handleRead_atLine {d : Dispatch} {h : Http} {bytes : Bytes} {o : Outcome}
    (hd : Delivers fs d bytes) (hr : h.AtRest) (hs : Serves fs (h.readBuffer ++ bytes) o w)
    (ho : o.hasError = false) (hw : lineDelimiter ∉ w) :
    (handleRead fs d.before (d.beforeRead h)).http.processState = .stateParseUri := by
  obtain ⟨t, ht, -, -⟩ := beforeRead_accepted hr hd.writes
  refine handleReadFuel_drained fs d.before hw _ _ o ?_ ?_ ?_
    (Nat.lt_succ_of_lt (Nat.lt_succ_self _)) ?_ ho
  · rw [ht]
    exact ⟨hr.processState, hr.headerLineState, hr.headerKv, hr.connectionState, hr.hasError,
      hr.writeBuffer⟩
  · rw [ht]
    exact hd.onlyData
  · rw [ht]
    exact hd.writes
  · rw [ht]
    show Serves fs (h.readBuffer ++ delivered d.reads) _ _
    rwa [hd.delivered]

/-- **An event that brings requests is answered with their files.** -/
theorem run_batch {d : Dispatch} {h : Http} {batch : Batch} {piece : Bytes}
    (hd : Delivers fs d piece) (hh : h.Awaits w) (hbytes : w ++ piece = batchBytes w' batch)
    (hw : lineDelimiter ∉ w') (hfile : Readable fs content batch) :
    Carried content batch w' (d.run h) := by
  obtain ⟨o, u, hs, hby⟩ := handleRead_served hd hh.atRest
  rw [hh.readBuffer, hbytes] at hs
  have hbatch := serves_batch hw hfile
  obtain ⟨rfl, rfl⟩ := hs.unique hbatch
  obtain ⟨hrun, hk, hps⟩ := run_served hd hh.atRest hh.keepAlive hby
  have hread := handleRead_atLine (o := batchOutcome content batch) hd hh.atRest
    (by rwa [hh.readBuffer, hbytes]) rfl hw
  exact hrun.carried (hps.trans hread) hk

/-- An event without bytes changes nothing. -/
theorem run_idle {d : Dispatch} {h : Http} (hd : Idles d) (hh : h.Awaits w) :
    Carried content [] w (d.run h) := by
  obtain ⟨t, ht, htr, hts⟩ := beforeRead_accepted hh.atRest hd.writes
  have hr := hh.atRest
  have hrest : (d.start h).http.AtRest :=
    ⟨hr.processState, hr.headerLineState, hr.headerKv, hr.connectionState, hr.hasError,
      hr.writeBuffer⟩
  by_cases ha : d.active.epollhup ∧ ¬ d.active.epollin
  · rw [d.run_hup h ha]
    exact ⟨⟨hrest, hh.keepAlive, hh.readBuffer⟩, rfl, rfl⟩
  · rw [d.run_eq h ha, Dispatch.beforeConn,
      if_neg (by simp [hd.epollin, hd.epollpri, hd.epollrdhup]), ht]
    have hby : ServedBy (d.start h) { d.start h with trace := t } (batchOutcome content []) w :=
      ⟨htr, hts, hr.writeBuffer, hr.hasError, fun _ _ => ⟨hrest, hh.readBuffer⟩⟩
    have hout := hby.handleCurrentConn hh.keepAlive
    obtain ⟨st, ev, hframe⟩ := handleCurrentConn_frame { d.start h with trace := t }
    refine hout.carried ?_ ?_
    · rw [hframe]
      exact hr.processState
    · rw [hframe]
      exact hh.keepAlive

theorem Carries.run {d : Dispatch} {h : Http} {batch : Batch} (hc : Carries fs w d batch w')
    (hh : h.Awaits w) (hfile : Readable fs content batch) :
    Carried content batch w' (d.run h) := by
  cases hc with
  | bytes hd hbytes hw => exact run_batch hd hh hbytes hw hfile
  | idle hd => exact run_idle hd hh

/-! ## Runs -/

/-- What a session has done for some batches. -/
structure Session.Answered (content : GetRequest → Bytes) (batches : List Batch)
    (log : List Effect) : Prop where
  requests : requestsOf log = batches.flatten.map fun p => (p.1.request, true)
  sent : bytesSent log = (answers content batches.flatten).flatMap response

theorem Session.Answered.dispatch {batches : List Batch} {batch : Batch} {s : Session}
    {d : Dispatch} (h : Session.Answered content batches s.log)
    (hc : Carried content batch w (d.run s.http)) :
    Session.Answered content (batches ++ [batch]) (s.dispatch d).log where
  requests := by
    show requestsOf (s.log ++ (d.run s.http).trace) = _
    rw [requestsOf_append, h.requests, hc.requests]
    simp [batchOutcome]
  sent := by
    show bytesSent (s.log ++ (d.run s.http).trace) = _
    rw [bytesSent_append, h.sent, hc.sent]
    simp [batchOutcome, answers]

/-- The induction is on the events; the batches before them are in `done`. -/
theorem Session.answered {ds : List Dispatch} {batches : List Batch}
    (hb : Brings fs w ds batches w') : ∀ {done : List Batch} {s : Session},
    (∀ b ∈ batches, Readable fs content b) → s.http.Awaits w →
    Session.Answered content done s.log →
    (ds.foldl Session.dispatch s).http.Awaits w' ∧
      Session.Answered content (done ++ batches) (ds.foldl Session.dispatch s).log := by
  induction hb with
  | nil =>
    intro done s _ hs ho
    rw [List.append_nil]
    exact ⟨hs, ho⟩
  | @cons _ _ _ d batch ds batches hd _ ih =>
    intro done s hfile hs ho
    have hrun := hd.run hs (hfile _ List.mem_cons_self)
    have h := ih (s := s.dispatch d) (fun b hb => hfile b (List.mem_cons_of_mem _ hb))
      hrun.awaits (ho.dispatch hrun)
    rw [List.append_assoc, List.singleton_append] at h
    exact h

/-! ## A connection of a loop -/

/-- What the callbacks of a connection do when its events bring such requests. -/
theorem EventLoop.answered {wakeupFd : Fd} {s : EventLoop} {id : HttpId}
    {seen : List (Dispatch × List Effect)} (h : (loops wakeupFd).Observed (handled id) seen s)
    {batches : List Batch} (hc : Brings fs [] (seen.map Prod.fst) batches w)
    (hfile : ∀ b ∈ batches, Readable fs content b) :
    Session.Answered content batches (seen.map Prod.snd).flatten ∧
      (s.Registered id → (s.http id).Awaits w) := by
  obtain ⟨t, ht, hm, hlog⟩ := log_of_handled h
  have hfold := sessions_labelled ht
  have hopened : (Session.opened true).http.Awaits [] := ⟨fresh_atRest, rfl, rfl⟩
  have hnone : Session.Answered content [] (Session.opened true).log := ⟨rfl, rfl⟩
  obtain ⟨hawaits, hanswered⟩ := Session.answered hc hfile hopened hnone
  rw [← hfold, List.nil_append, hlog] at hanswered
  rw [← hfold] at hawaits
  exact ⟨hanswered, fun hr => hm.http hr ▸ hawaits⟩

/-- Responses and the bytes of their files, as a client reads them. -/
def answerFraming : Framing UInt8 (Request × Bytes) Bytes where
  encode := response
  content := Prod.snd
  next := nextResponse
  encode_ne_nil p := by
    rw [response, okResponse_lines]
    simp [CRLFCRLF]
  next_encode p rest := nextResponse_okResponse p.1 p.2 rest

theorem Session.Answered.decode {batches : List Batch} {log : List Effect}
    (h : Session.Answered content batches log) :
    decodeResponses (bytesSent log) = some (batches.flatten.map fun p => content p.1) := by
  have hdecode := answerFraming.decode_flatMap (answers content batches.flatten)
  rw [answers, List.map_map] at hdecode
  rw [h.sent]
  exact hdecode

/-! ## A connection of a server -/

namespace Server

variable {wakeupFd : Nat → Fd} {threadNum : Nat} {s : Server} {k : Nat} {id : HttpId}

end Server

/-! ## An example -/

theorem agent_target : SPACE ∉ ([] : Bytes) ∧ lineDelimiter ∉ ([] : Bytes) :=
  ⟨List.not_mem_nil, List.not_mem_nil⟩

theorem agent_before : lineDelimiter ∉ ([] : List HeaderLine).flatMap HeaderLine.bytes :=
  List.not_mem_nil

theorem agent_isKey : IsKey (text "-Agent") := ⟨by decide, by simp [COLON, CR, LF]⟩

theorem agent_isValue : IsValue (text "x") := ⟨List.not_mem_nil, Nat.zero_le 255⟩

theorem agent_front : lineDelimiter ∉ text "Use" := by decide

theorem agent_first : (text "-Agent").head? ≠ some LF := by decide

/-- `GET / HTTP/1.1` with the header `User-Agent: x`. -/
def agentRequest : GetRequest where
  target := []
  version := .http11
  before := []
  front := text "Use"
  line := ⟨text "-Agent", text "x", agent_isKey, agent_isValue⟩
  after := []
  target_plain := agent_target
  before_plain := agent_before
  front_plain := agent_front
  line_first := agent_first

example : agentRequest.bytes = text "GET / HTTP/1.1\r\nUser-Agent: x\r\n\r\n" := by decide

/-- It arrives in one piece. -/
def agentEvent : Dispatch := .bringing .blank ⟨agentRequest.bytes, by decide, by decide⟩

end FlashWeb
