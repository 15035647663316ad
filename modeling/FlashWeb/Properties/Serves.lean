import FlashWeb.Properties.Incremental
import FlashWeb.Properties.Dispatch

/-!
# What a connection makes of the bytes in its buffer

A connection at rest (between two requests, with nothing left to send) whose peer takes everything
that is written. What it does with the bytes in its buffer is then a function of these bytes and of
the file system: `firstRequest` is what the parser finds first, and `Serves` follows the requests
to the end of the bytes. `handleRead_serves` says that this is what `HandleRead` does.
-/

namespace FlashWeb

open Lib

/-! ## The first request -/

/-- What the parser finds at the beginning of the bytes. -/
inductive FirstRequest where
  /-- no request that is to be processed, as far as the bytes go -/
  | waiting
  | refused
  /-- a request for `METHOD_GET`, with the bytes behind it -/
  | get (r : Request) (rest : Bytes)

/-- `ParseURI` and `ParseHeaders` on `s` in a connection at rest. -/
def firstRequest (s : Bytes) : FirstRequest :=
  match parseUri { Http.construct true with readBuffer := s } with
  | (.parseUriAgain, _) => .waiting
  | (.parseUriError, _) => .refused
  | (.parseUriSuccess, h) =>
    match parseHeaders 0 h with
    | (.parseHeaderAgain, _) => .waiting
    | (.parseHeaderError, _) => .refused
    | (.parseHeaderSuccess, h) =>
      match h.method with
      | some .methodGet => .get h.request h.readBuffer
      | _ => .waiting

/-- What the parser finds behind an accepted request line. -/
def headerRequest (m : HttpMethod) (path : Bytes) (v : HttpVersion) (header : Bytes) :
    FirstRequest :=
  match headerScanner.run Scan.init header with
  | none => .refused
  | some (s, rest) =>
    if s.phase.Done then
      match m with
      | .methodGet => .get ⟨some m, path, v, s.kv⟩ rest
      | .methodPost => .waiting
    else .waiting

theorem firstRequest_again {s : Bytes} (hd : lineDelimiter ∉ s) : firstRequest s = .waiting := by
  unfold firstRequest
  rw [parseUri_again hd]

theorem firstRequest_rejected {line rest : Bytes} (hl : lineDelimiter ∉ line)
    (hr : ∀ h, (parseHeaderLine line h).1 = .parseUriError) :
    firstRequest (line ++ lineDelimiter :: rest) = .refused := by
  unfold firstRequest
  rw [parseUri_append _ hl rfl]
  have hv := hr { Http.construct true with readBuffer := rest }
  cases hp : parseHeaderLine line { Http.construct true with readBuffer := rest } with
  | mk verdict h =>
    rw [hp] at hv
    rw [show verdict = .parseUriError from hv]

theorem firstRequest_accepted {line rest path : Bytes} {m : HttpMethod} {v : HttpVersion}
    (hl : lineDelimiter ∉ line)
    (ha : ∀ h, parseHeaderLine line h = (.parseUriSuccess, h.setLine (some m) path v)) :
    firstRequest (line ++ lineDelimiter :: rest) = headerRequest m path v rest := by
  unfold firstRequest headerRequest
  rw [parseUri_append _ hl rfl, ha]
  dsimp only
  have hat : ({ Http.construct true with readBuffer := rest } : Http).setLine (some m) path v =
      ((Http.construct true).setLine (some m) path v).atHeader rest := rfl
  rw [hat]
  rcases parseHeaders_atHeader 0 ((Http.construct true).setLine (some m) path v) rest with
    ⟨hn, he⟩ | ⟨s, r, hs, he⟩
  · rw [hn]
    cases hp : parseHeaders 0 (((Http.construct true).setLine (some m) path v).atHeader rest) with
    | mk verdict h =>
      rw [hp] at he
      rw [show verdict = .parseHeaderError from he]
  · rw [hs, he, headerResult]
    dsimp only
    by_cases hd : s.phase.Done
    · rw [if_pos hd, if_pos hd]
      cases m <;> rfl
    · rw [if_neg hd, if_neg hd]

/-- A request line is accepted or rejected, whatever the connection. -/
theorem parseHeaderLine_cases (line : Bytes) :
    (∃ m path v, ∀ h, parseHeaderLine line h =
        (.parseUriSuccess, h.setLine (some m) path v)) ∨
      ∀ h, (parseHeaderLine line h).1 = .parseUriError := by
  rcases parseHeaderLine_spec line with h | ⟨m, path, h⟩
  · exact Or.inl h
  · exact Or.inr fun g => by rw [h]

/-- **The bytes have no request line yet, or are cut behind it.** -/
theorem firstRequest_cases (s : Bytes) :
    (lineDelimiter ∉ s ∧ firstRequest s = .waiting) ∨
      ∃ line rest, lineDelimiter ∉ line ∧ s = line ++ lineDelimiter :: rest ∧
        (((∀ h, (parseHeaderLine line h).1 = .parseUriError) ∧ firstRequest s = .refused) ∨
          ∃ m path v, (∀ h, parseHeaderLine line h =
            (.parseUriSuccess, h.setLine (some m) path v)) ∧
            firstRequest s = headerRequest m path v rest) := by
  by_cases hd : lineDelimiter ∈ s
  · obtain ⟨line, rest, hb, hl⟩ := List.eq_append_cons_of_mem hd
    refine Or.inr ⟨line, rest, hl, hb, ?_⟩
    rw [hb]
    rcases parseHeaderLine_cases line with ⟨m, path, v, ha⟩ | hr
    · exact Or.inr ⟨m, path, v, ha, firstRequest_accepted hl ha⟩
    · exact Or.inl ⟨hr, firstRequest_rejected hl hr⟩
  · exact Or.inl ⟨hd, firstRequest_again hd⟩

/-- The request found takes bytes away. -/
theorem headerRequest_get {m : HttpMethod} {path header rest : Bytes} {v : HttpVersion}
    {r : Request} (h : headerRequest m path v header = .get r rest) :
    m = .methodGet ∧ rest.length ≤ header.length ∧ ∃ s, s.phase.Done ∧
      headerScanner.run Scan.init header = some (s, rest) ∧ r = ⟨some m, path, v, s.kv⟩ := by
  unfold headerRequest at h
  cases hr : headerScanner.run Scan.init header with
  | none => rw [hr] at h; simp at h
  | some p =>
    obtain ⟨s, rest'⟩ := p
    rw [hr] at h
    dsimp only at h
    split at h
    · next hd =>
      cases m with
      | methodPost => simp at h
      | methodGet =>
        simp only [FirstRequest.get.injEq] at h
        obtain ⟨q, hq, -⟩ := headerScanner.run_invariant (I := fun _ _ => True) (p := [])
          (fun _ _ _ _ _ _ => trivial) trivial hr
        rw [← h.1, ← h.2, hq]
        exact ⟨rfl, by simp, s, hd, rfl, rfl⟩
    · simp at h

theorem firstRequest_get {s rest : Bytes} {r : Request} (h : firstRequest s = .get r rest) :
    r.method = some .methodGet ∧ rest.length < s.length := by
  rcases firstRequest_cases s with ⟨-, hw⟩ | ⟨line, rest', -, hs, ⟨-, hr⟩ | ⟨m, path, v, -, hr⟩⟩
  · rw [hw] at h; simp at h
  · rw [hr] at h; simp at h
  · rw [hr] at h
    obtain ⟨hm, hle, s', -, -, hreq⟩ := headerRequest_get h
    refine ⟨by rw [hreq, hm], ?_⟩
    rw [hs]
    simp only [List.length_append, List.length_cons]
    omega

/-! ## A connection at rest -/

/-- Between two requests, open in both directions. -/
structure Http.AtRest (h : Http) : Prop where
  processState : h.processState = .stateParseUri
  headerLineState : h.headerLineState = .hStart
  headerKv : h.headerKv = HeaderMap.empty
  connectionState : h.connectionState = .connected
  hasError : h.hasError = false
  writeBuffer : h.writeBuffer = []

theorem Http.AtRest.live {h : Http} (hr : h.AtRest) : h.Live :=
  ⟨hr.hasError, by rw [hr.connectionState]; simp, Or.inl hr.processState⟩

/-- The connection with the request `r` parsed and `rest` left in the buffer. -/
def Http.found (h : Http) (r : Request) (rest : Bytes) : Http :=
  { h with
    readBuffer := rest
    method := r.method
    filePath := r.filePath
    httpVersion := r.httpVersion
    headerKv := r.headerKv
    headerLineState := .hEndLf
    processState := .stateProcess }

/-- What `stageUri` makes of the first request in the buffer. -/
inductive Staged (fs : FileSystem) (c : Conn) : FirstRequest → Conn → Prop where
  | waiting (p : Http) : ParserFrame c.http p → p.processState.Between →
      (p.processState = .stateParseUri → p = c.http) → Staged fs c .waiting { c with http := p }
  | refused (p : Http) : ParserFrame c.http p →
      Staged fs c .refused (reject { c with http := p })
  | get (r : Request) (rest : Bytes) : r.method = some .methodGet →
      Staged fs c (.get r rest) (stageProcess fs { c with http := c.http.found r rest })

theorem stageHeader_staged (fs : FileSystem) (before : UInt8) (c : Conn) (hr : c.http.AtRest)
    {m : HttpMethod} {path rest : Bytes} {v : HttpVersion}
    (hlen : rest.length ≤ c.http.readBuffer.length) :
    Staged fs c (headerRequest m path v rest) (stageHeader fs before
      { c with http := { ({ c.http with readBuffer := rest } : Http).setLine (some m) path v with
        processState := .stateParseHeader } }) := by
  -- `ParseHeaders` starts at the beginning of a header, where the scanner does
  generalize hg : { ({ c.http with readBuffer := rest } : Http).setLine (some m) path v with
    processState := ProcessState.stateParseHeader } = g
  have henter : Scan.enter before g = Scan.init := by
    rw [← hg]
    simp [Scan.enter, Http.setLine, hr.headerLineState, hr.headerKv, resume, Scan.init]
  have hbuf : g.readBuffer = rest := by rw [← hg]; rfl
  have hframe : ParserFrame c.http g := by
    rw [← hg]
    exact ⟨rfl, rfl, rfl, rfl, rfl, hlen⟩
  obtain ⟨buf, st, kv, hble, hfr⟩ := parseHeaders_frame before g
  have hp : ParserFrame c.http (parseHeaders before g).2 := by
    rw [hfr]
    exact hframe.trans ⟨rfl, rfl, rfl, rfl, rfl, hble⟩
  have hstate : (parseHeaders before g).2.processState = .stateParseHeader := by
    rw [hfr, ← hg]
  unfold stageHeader headerRequest
  rw [if_pos (by rw [← hg])]
  dsimp only
  rcases parseHeaders_eq before g with ⟨hn, he⟩ | ⟨s, rest', hs, he⟩
  · rw [henter, hbuf] at hn
    rw [hn]
    cases hres : parseHeaders before g with
    | mk verdict p =>
      rw [hres] at he hp
      rw [show verdict = .parseHeaderError from he]
      exact .refused p hp
  · rw [henter, hbuf] at hs
    rw [hs]
    rw [he] at hp hstate ⊢
    dsimp only
    by_cases hd : s.phase.Done
    · rw [headerResult_done hd] at hp ⊢
      rw [if_pos hd]
      cases m with
      | methodGet =>
        have hfound : ({ g with
            readBuffer := rest', headerLineState := .hEndLf, headerKv := s.kv,
            processState := .stateProcess } : Http) = c.http.found
              ⟨some .methodGet, path, v, s.kv⟩ rest' := by
          rw [← hg]
          rfl
        have hget : Staged fs c _ _ := .get ⟨some .methodGet, path, v, s.kv⟩ rest' rfl
        have hm : g.method = some .methodGet := by rw [← hg]; rfl
        rw [← hfound, hm] at hget
        rw [hm]
        exact hget
      | methodPost =>
        rw [show g.method = some .methodPost by rw [← hg]; rfl]
        dsimp only
        rw [stageProcess_between fs (Or.inr (Or.inr rfl))]
        exact .waiting _ (hp.trans ⟨rfl, rfl, rfl, rfl, rfl, le_rfl⟩) (Or.inr (Or.inr rfl))
          (by simp)
    · rw [headerResult, if_neg hd] at hp hstate ⊢
      rw [if_neg hd]
      exact .waiting _ hp (Or.inr (Or.inl hstate)) fun h => by rw [hstate] at h; simp at h

/-- **Parsing a connection at rest finds the first request.** -/
theorem stageUri_staged (fs : FileSystem) (before : UInt8) (c : Conn) (hr : c.http.AtRest) :
    Staged fs c (firstRequest c.http.readBuffer) (stageUri fs before c) := by
  unfold stageUri
  rw [if_pos hr.processState]
  rcases firstRequest_cases c.http.readBuffer with ⟨hd, hw⟩ |
    ⟨line, rest, hl, hb, hcut⟩
  · rw [hw, parseUri_again hd]
    exact .waiting c.http ⟨rfl, rfl, rfl, rfl, rfl, le_rfl⟩ (Or.inl hr.processState) fun _ => rfl
  · have hlen : rest.length ≤ c.http.readBuffer.length := by
      rw [hb]
      simp
      omega
    rcases hcut with ⟨hrej, hf⟩ | ⟨m, path, v, hacc, hf⟩
    · rw [hf, parseUri_append c.http hl hb]
      rcases parseHeaderLine_spec line with ⟨m, path, v, hs⟩ | ⟨m, path, hs⟩
      · have := hrej c.http
        rw [hs] at this
        simp at this
      · rw [hs]
        exact .refused _ ⟨rfl, rfl, rfl, rfl, rfl, hlen⟩
    · rw [hf, parseUri_append c.http hl hb, hacc]
      exact stageHeader_staged fs before c hr hlen

/-! ## All the requests in the buffer -/

/-- What a connection does for some bytes. -/
structure Outcome where
  /-- the requests processed, and whether each succeeded -/
  requests : List (Request × Bool)
  sent : Bytes
  /-- what is left in `write_buffer_` -/
  left : Bytes
  hasError : Bool

/-- What becomes of the bytes `s`, and the bytes at the end of them in which no request is found. -/
inductive Serves (fs : FileSystem) : Bytes → Outcome → Bytes → Prop where
  | waiting {s : Bytes} : firstRequest s = .waiting → Serves fs s ⟨[], [], [], false⟩ s
  | refused {s : Bytes} : firstRequest s = .refused →
      Serves fs s ⟨[], errorPage 400 (text "Bad Request"), [], true⟩ []
  | missing {s rest : Bytes} {r : Request} : firstRequest s = .get r rest →
      fs.file (cStr r.filePath) = none →
      Serves fs s ⟨[(r, false)], errorPage 404 (text "Not Found!") ++
        errorPage 400 (text "Bad Request"), fs.leftover r [], true⟩ []
  | served {s rest w data : Bytes} {r : Request} {o : Outcome} : firstRequest s = .get r rest →
      fs.file (cStr r.filePath) = some data → Serves fs rest o w →
      Serves fs s ⟨(r, true) :: o.requests, okResponse r data ++ o.sent, o.left, o.hasError⟩ w

/-- The bytes and the files decide what becomes of the bytes. -/
theorem Serves.unique {fs : FileSystem} {s w w' : Bytes} {o o' : Outcome} (h : Serves fs s o w)
    (h' : Serves fs s o' w') : o = o' ∧ w = w' := by
  induction h generalizing o' w' with
  | waiting hf =>
    cases h' with
    | waiting => exact ⟨rfl, rfl⟩
    | refused hf' => rw [hf] at hf'; simp at hf'
    | missing hf' => rw [hf] at hf'; simp at hf'
    | served hf' => rw [hf] at hf'; simp at hf'
  | refused hf =>
    cases h' with
    | waiting hf' => rw [hf] at hf'; simp at hf'
    | refused => exact ⟨rfl, rfl⟩
    | missing hf' => rw [hf] at hf'; simp at hf'
    | served hf' => rw [hf] at hf'; simp at hf'
  | missing hf hfile =>
    cases h' with
    | waiting hf' => rw [hf] at hf'; simp at hf'
    | refused hf' => rw [hf] at hf'; simp at hf'
    | missing hf' _ =>
      rw [hf, FirstRequest.get.injEq] at hf'
      rw [hf'.1]
      exact ⟨rfl, rfl⟩
    | served hf' hfile' _ =>
      rw [hf, FirstRequest.get.injEq] at hf'
      rw [hf'.1, hfile'] at hfile
      simp at hfile
  | served hf hfile _ ih =>
    cases h' with
    | waiting hf' => rw [hf] at hf'; simp at hf'
    | refused hf' => rw [hf] at hf'; simp at hf'
    | missing hf' hfile' =>
      rw [hf, FirstRequest.get.injEq] at hf'
      rw [hf'.1, hfile'] at hfile
      simp at hfile
    | served hf' hfile' hs =>
      rw [hf, FirstRequest.get.injEq] at hf'
      rw [hf'.1, hfile', Option.some.injEq] at hfile
      obtain ⟨ho, hw⟩ := ih (by rw [hf'.2]; exact hs)
      rw [ho, hw, hf'.1, hfile]
      exact ⟨rfl, rfl⟩

/-- Something becomes of all bytes. -/
theorem serves_total (fs : FileSystem) (s : Bytes) : ∃ o w, Serves fs s o w := by
  induction hn : s.length using Nat.strong_induction_on generalizing s with
  | _ n ih =>
    cases hf : firstRequest s with
    | waiting => exact ⟨_, _, .waiting hf⟩
    | refused => exact ⟨_, _, .refused hf⟩
    | get r rest =>
      cases hfile : fs.file (cStr r.filePath) with
      | none => exact ⟨_, _, .missing hf hfile⟩
      | some data =>
        obtain ⟨o, w, hs⟩ := ih rest.length (hn ▸ (firstRequest_get hf).2) rest rfl
        exact ⟨_, _, .served hf hfile hs⟩

/-! ## `HandleRead` on a connection at rest -/

/-- `read` delivers bytes; it may be interrupted. -/
def Delivering (rs : List ReadResult) : Prop := ∀ r ∈ rs, r = .eintr ∨ ∃ chunk, r = .data chunk

theorem readLoop_delivering (t : List ReadResult) : ∀ (rs : List ReadResult) (n : Nat)
    (buf : Bytes), Delivering rs →
    readLoop (rs ++ t) n buf = readLoop t (n + (delivered rs).length) (buf ++ delivered rs)
  | [], n, buf, _ => by simp [delivered]
  | r :: rs, n, buf, h => by
    have hrest : Delivering rs := fun r hr => h r (List.mem_cons_of_mem _ hr)
    rcases h r List.mem_cons_self with rfl | ⟨chunk, rfl⟩
    · rw [List.cons_append, readLoop, readLoop_delivering t rs n buf hrest]
      rfl
    · rw [List.cons_append, readLoop, readLoop_delivering t rs _ _ hrest, delivered,
        List.length_append, List.append_assoc, Nat.add_assoc]

/-- The reads deliver bytes and nothing else. -/
def OnlyData (rs : List ReadResult) : Prop := ∀ r ∈ rs, ∃ chunk, r = .data chunk

theorem readLoop_onlyData (rs : List ReadResult) (n : Nat) (buf : Bytes) (h : OnlyData rs) :
    readLoop rs n buf = ⟨n + (delivered rs).length, false, buf ++ delivered rs, []⟩ := by
  have hread := readLoop_delivering [] rs n buf fun r hr => Or.inr (h r hr)
  rwa [List.append_nil, readLoop, Nat.cast_add] at hread

/-- When the peer takes everything the buffer is sent whole. -/
theorem flush_accepted {c : Conn} (hw : c.writes = []) :
    flush c = { c with
      http := { c.http with writeBuffer := [] }
      trace := c.trace ++ [.flush c.http.writeBuffer false] } := by
  unfold flush writeToFd
  rw [hw]
  simp [writeLoop, Conn.emit]

theorem flush_flush_accepted {c : Conn} (hw : c.writes = []) :
    flush (flush c) = { c with
      http := { c.http with writeBuffer := [] }
      trace := c.trace ++ [.flush c.http.writeBuffer false, .flush [] false] } := by
  have hw' : (flush c).writes = [] := by rw [flush_accepted hw]; exact hw
  rw [flush_accepted hw', flush_accepted hw]
  simp

theorem writeResponse_accepted {c : Conn} (hw : c.writes = []) (he : c.http.hasError = false)
    (hc : c.http.connectionState ≠ .disconnected) :
    ∃ t, writeResponse c = { c with
        http := { c.http with writeBuffer := [] }
        trace := c.trace ++ t } ∧ requestsOf t = [] ∧ bytesSent t = c.http.writeBuffer := by
  unfold writeResponse
  split
  · refine ⟨[.flush c.http.writeBuffer false, .flush [] false], ?_, rfl,
      by simp [Effect.sent]⟩
    unfold handleWrite
    rw [if_pos ⟨he, hc⟩]
    dsimp only
    rw [flush_flush_accepted hw]
    rfl
  · next hlen =>
    have hnil : c.http.writeBuffer = [] := List.length_eq_zero_iff.mp (by omega)
    refine ⟨[], ?_, rfl, by rw [hnil]; rfl⟩
    rw [List.append_nil, ← hnil]

theorem badRequest_accepted {c : Conn} (hw : c.writes = []) :
    ∃ t, badRequest c = { c with
        http := { c.http with hasError := true }
        trace := c.trace ++ t } ∧ requestsOf t = [] ∧
      bytesSent t = errorPage 400 (text "Bad Request") := by
  refine ⟨[.page 400 (text "Bad Request") c.http.writeBuffer
    (errorHeader 400 (text "Bad Request")) (errorBody 400 (text "Bad Request"))], ?_, rfl, ?_⟩
  · simp [badRequest, handleError, writeToFdRaw, writeLoopRaw, hw, Conn.emit]
  · simp [Effect.sent, errorPage]

theorem refused_accepted (fs : FileSystem) {c : Conn} (hw : c.writes = []) :
    ∃ t, refused fs c = { c with
        http := { c.http with
          writeBuffer := fs.leftover c.http.request c.http.writeBuffer
          keepAlive := c.http.keptAlive c.http.headerKv }
        trace := c.trace ++ t } ∧ requestsOf t = [(c.http.request, false)] ∧
      bytesSent t = errorPage 404 (text "Not Found!") := by
  refine ⟨[.page 404 (text "Not Found!") (fs.leftover c.http.request c.http.writeBuffer)
    (errorHeader 404 (text "Not Found!")) (errorBody 404 (text "Not Found!")),
    .process c.http.request false], ?_, rfl, ?_⟩
  · simp [refused, handleError, writeToFdRaw, writeLoopRaw, hw, Conn.emit]
  · simp [Effect.sent, errorPage]

/-- `out` is `c` after it did what `o` says, with `w` left to be completed. -/
structure ServedBy (c out : Conn) (o : Outcome) (w : Bytes) : Prop where
  requests : requestsOf out.trace = requestsOf c.trace ++ o.requests
  sent : bytesSent out.trace = bytesSent c.trace ++ o.sent
  left : out.http.writeBuffer = o.left
  hasError : out.http.hasError = o.hasError
  rest : o.hasError = false → out.http.processState = .stateParseUri →
    out.http.AtRest ∧ out.http.readBuffer = w

section

variable (fs : FileSystem) (before : UInt8)

theorem handleReadBody_failed {c c₁ : Conn} (h : readAndParse fs before c = badRequest c₁)
    (again : Conn → Conn) : handleReadBody fs before again c = c₁.failWith := by
  unfold handleReadBody
  rw [h]
  exact if_neg (by simp [badRequest, handleError])

theorem failWith_servedBy {c : Conn} (c₁ : Conn) (hw : c₁.writes = [])
    {reqs : List (Request × Bool)} {sent : Bytes}
    (hr : requestsOf c₁.trace = requestsOf c.trace ++ reqs)
    (hs : bytesSent c₁.trace = bytesSent c.trace ++ sent) :
    ServedBy c c₁.failWith
      ⟨reqs, sent ++ errorPage 400 (text "Bad Request"), c₁.http.writeBuffer, true⟩ [] := by
  obtain ⟨t, ht, htr, hts⟩ := badRequest_accepted hw
  unfold Conn.failWith handleClose
  rw [ht]
  refine ⟨?_, ?_, rfl, rfl, by simp⟩
  · simp [hr, htr, Effect.processed]
  · simp [hs, hts, Effect.sent]

theorem refused_servedBy {c c₁ : Conn} (hw : c₁.writes = []) (ht : c₁.trace = c.trace)
    (hb : c₁.http.writeBuffer = []) :
    ServedBy c (refused fs c₁).failWith ⟨[(c₁.http.request, false)],
      errorPage 404 (text "Not Found!") ++ errorPage 400 (text "Bad Request"),
      fs.leftover c₁.http.request [], true⟩ [] := by
  obtain ⟨t, hr, htr, hts⟩ := refused_accepted fs hw
  have hserved := failWith_servedBy (c := c) (refused fs c₁) (by rw [hr]; exact hw)
    (by rw [hr, requestsOf_append, htr, ht]) (by rw [hr, bytesSent_append, hts, ht])
  rw [show (refused fs c₁).http.writeBuffer = fs.leftover c₁.http.request [] by
    rw [hr]; show fs.leftover _ c₁.http.writeBuffer = _; rw [hb]] at hserved
  exact hserved

theorem writeResponse_nothing {c : Conn} (hw : c.http.writeBuffer = []) : writeResponse c = c := by
  unfold writeResponse
  rw [if_neg (by rw [hw]; simp)]

/-- An activation that waits for more bytes. -/
theorem handleReadBody_waiting {c c₁ : Conn} (h : readAndParse fs before c = c₁)
    (he : c₁.http.hasError = false) (hc : c₁.http.connectionState ≠ .disconnected)
    (hb : c₁.http.processState.Between) (again : Conn → Conn) :
    ∃ ev, handleReadBody fs before again c = (writeResponse c₁).listen ev := by
  obtain ⟨wb, ev, hw, -⟩ := writeResponse_frame c₁
  have hfin : c₁.http.processState ≠ .stateFinish := by rcases hb with h | h | h <;> simp [h]
  unfold handleReadBody
  rw [h]
  dsimp only
  rw [if_pos he, hw, if_neg fun h => hfin h.2, if_pos ⟨he, hc⟩]
  exact ⟨_, rfl⟩

/-- The connection behind a request that was answered: at rest, with the response sent. -/
theorem reset_served {c : Conn} (data : Bytes) (hw : c.writes = []) (he : c.http.hasError = false)
    (hc : c.http.connectionState = .connected) :
    ∃ c', reset (writeResponse (served c data)) = c' ∧ c'.http.AtRest ∧
      c'.http.readBuffer = c.http.readBuffer ∧ c'.reads = c.reads ∧ c'.writes = [] ∧
      requestsOf c'.trace = requestsOf c.trace ++ [(c.http.request, true)] ∧
      bytesSent c'.trace =
        bytesSent c.trace ++ (c.http.writeBuffer ++ okResponse c.http.request data) := by
  obtain ⟨t, ht, htr, hts⟩ := writeResponse_accepted (c := served c data) hw he
    (by show c.http.connectionState ≠ _; rw [hc]; simp)
  rw [ht]
  refine ⟨_, rfl, ⟨rfl, rfl, rfl, hc, he, rfl⟩, rfl, rfl, hw, ?_, ?_⟩
  · simp [reset, served, htr, Effect.processed]
  · simp [reset, hts, served, Effect.sent]

/-- One that answers a request. -/
theorem handleReadBody_served {c c₁ : Conn} {data : Bytes}
    (h : readAndParse fs before c = served c₁ data) (he : c₁.http.hasError = false)
    (again : Conn → Conn) : handleReadBody fs before again c =
      if c₁.http.readBuffer.length > 0 ∧ c₁.http.connectionState ≠ .disconnecting then
        again (reset (writeResponse (served c₁ data)))
      else reset (writeResponse (served c₁ data)) := by
  have hend := writeResponse_finished c₁ data
  unfold handleReadBody
  rw [h]
  dsimp only
  rw [if_pos (show (served c₁ data).http.hasError = false from he),
    if_pos ⟨hend.noError.trans he, hend.processState⟩, hend.readBuffer, hend.connectionState]

/-- The same on a connection that is `CONNECTED`. -/
theorem handleReadBody_connected {c c₁ : Conn} {data : Bytes}
    (h : readAndParse fs before c = served c₁ data) (he : c₁.http.hasError = false)
    (hc : c₁.http.connectionState = .connected) (again : Conn → Conn) :
    handleReadBody fs before again c =
      if c₁.http.readBuffer.length > 0 then again (reset (writeResponse (served c₁ data)))
      else reset (writeResponse (served c₁ data)) := by
  rw [handleReadBody_served fs before h he, hc]
  simp

/-- **What `HandleRead` does with the bytes of a connection at rest.** -/
theorem handleReadFuel_serves : ∀ (n : Nat) (c : Conn),
    c.http.AtRest → OnlyData c.reads → c.writes = [] → c.pending < n →
    ∃ o w, Serves fs (c.http.readBuffer ++ delivered c.reads) o w ∧
      ServedBy c (handleReadFuel fs before n c) o w
  | 0, _, _, _, _, hn => absurd hn (Nat.not_lt_zero _)
  | n + 1, c, hr, hdata, hw, hn => by
    -- the bytes are read and the first request is parsed
    have hread : readAndParse fs before c = stageUri fs before { c with
        http := { c.http with readBuffer := c.http.readBuffer ++ delivered c.reads }
        reads := [] } := by
      unfold readAndParse readFromFd
      rw [readLoop_onlyData c.reads 0 c.http.readBuffer hdata]
      dsimp only
      rw [if_neg (by rw [hr.connectionState]; simp), if_neg (by omega), if_neg (by simp)]
    have hpend : (c.http.readBuffer ++ delivered c.reads).length < n + 1 := by
      rw [List.length_append]
      exact hn
    generalize c.http.readBuffer ++ delivered c.reads = s at hread hpend ⊢
    have hrs : ({ c.http with readBuffer := s } : Http).AtRest :=
      ⟨hr.processState, hr.headerLineState, hr.headerKv, hr.connectionState, hr.hasError,
        hr.writeBuffer⟩
    have hstage := stageUri_staged fs before
      { c with http := { c.http with readBuffer := s }, reads := [] } hrs
    rw [← hread] at hstage
    dsimp only at hstage
    rw [handleReadFuel]
    generalize hout : readAndParse fs before c = out at hstage
    generalize hfirst : firstRequest s = found at hstage
    cases hstage with
    | waiting p hf hb hsame =>
      have hpw : p.writeBuffer = [] := hf.writeBuffer.trans hr.writeBuffer
      have hpe : p.hasError = false := hf.hasError.trans hr.hasError
      have hpc : p.connectionState ≠ .disconnected := by
        rw [hf.connectionState, hr.connectionState]
        simp
      obtain ⟨ev, hev⟩ := handleReadBody_waiting fs before hout hpe hpc hb
        (handleReadFuel fs before n)
      refine ⟨_, _, .waiting hfirst, ?_⟩
      rw [hev, writeResponse_nothing hpw]
      refine ⟨(List.append_nil _).symm, (List.append_nil _).symm, hpw, hpe, fun _ hps => ?_⟩
      change p.processState = .stateParseUri at hps
      have hp := hsame hps
      simp only [Conn.listen]
      rw [hp]
      exact ⟨⟨hr.processState, hr.headerLineState, hr.headerKv, hr.connectionState, hr.hasError,
        hr.writeBuffer⟩, rfl⟩
    | refused p hf =>
      refine ⟨_, _, .refused hfirst, ?_⟩
      rw [handleReadBody_failed fs before hout]
      have hreqs : requestsOf (({ c with http := p, reads := [] } : Conn).emit .malformed).trace =
          requestsOf c.trace ++ [] := by simp [Effect.processed]
      have hsent : bytesSent (({ c with http := p, reads := [] } : Conn).emit .malformed).trace =
          bytesSent c.trace ++ [] := by simp [Effect.sent]
      have hwrites : (({ c with http := p, reads := [] } : Conn).emit .malformed).writes = [] := hw
      have hserved := failWith_servedBy _ hwrites hreqs hsent
      change ServedBy _ _ ⟨[], _, p.writeBuffer, true⟩ [] at hserved
      rw [hf.writeBuffer.trans hr.writeBuffer] at hserved
      exact hserved
    | get r rest hget =>
      generalize hc₁ : ({ c with
        http := ({ c.http with readBuffer := s } : Http).found r rest, reads := [] } : Conn) = c₁
        at hout
      have hps : c₁.http.processState = .stateProcess := by rw [← hc₁]; rfl
      have hreq : c₁.http.request = r := by rw [← hc₁]; rfl
      have hbuf : c₁.http.readBuffer = rest := by rw [← hc₁]; rfl
      have hwb : c₁.http.writeBuffer = [] := by rw [← hc₁]; exact hr.writeBuffer
      have he : c₁.http.hasError = false := by rw [← hc₁]; exact hr.hasError
      have hconn : c₁.http.connectionState = .connected := by rw [← hc₁]; exact hr.connectionState
      have hw₁ : c₁.writes = [] := by rw [← hc₁]; exact hw
      have ht₁ : c₁.trace = c.trace := by rw [← hc₁]
      have hr₁ : c₁.reads = [] := by rw [← hc₁]
      have hm₁ : c₁.http.method = some .methodGet := by rw [← hget, ← hreq]; rfl
      have hpath : c₁.http.filePath = r.filePath := by rw [← hreq]; rfl
      cases hfile : fs.file (cStr r.filePath) with
      | none =>
        rw [stageProcess_refused fs hps hm₁ (by rw [hpath]; exact hfile)] at hout
        rw [handleReadBody_failed fs before hout]
        have hserved := refused_servedBy fs hw₁ ht₁ hwb
        rw [hreq] at hserved
        exact ⟨_, _, .missing hfirst hfile, hserved⟩
      | some data =>
        rw [stageProcess_served fs hps hm₁ (by rw [hpath]; exact hfile)] at hout
        rw [handleReadBody_connected fs before hout he hconn]
        obtain ⟨c₂, hc₂, hrest₂, hbuf₂, hreads₂, hwrites₂, hreq₂, hsent₂⟩ :=
          reset_served data hw₁ he hconn
        rw [hreq, ht₁] at hreq₂
        rw [hreq, ht₁, hwb, List.nil_append] at hsent₂
        rw [hc₂, hbuf]
        have hlt := (firstRequest_get hfirst).2
        have hbytes : c₂.http.readBuffer ++ delivered c₂.reads = rest := by
          rw [hbuf₂, hbuf, hreads₂, hr₁, delivered, List.append_nil]
        -- the next activation, or the return when nothing is left
        have hnext : ∃ o w, Serves fs rest o w ∧
            ServedBy c₂ (if rest.length > 0 then handleReadFuel fs before n c₂ else c₂) o w := by
          split
          · have hpending : c₂.pending < n := by
              unfold Conn.pending
              rw [← List.length_append, hbytes]
              omega
            obtain ⟨o, w, hs, hby⟩ := handleReadFuel_serves n c₂ hrest₂
              (by rw [hreads₂, hr₁]; intro r hr; simp at hr) hwrites₂ hpending
            rw [hbytes] at hs
            exact ⟨o, w, hs, hby⟩
          · next hlen =>
            have hnil : rest = [] := List.length_eq_zero_iff.mp (by omega)
            refine ⟨⟨[], [], [], false⟩, [], ?_, ?_⟩
            · rw [hnil]
              exact .waiting (firstRequest_again (by simp))
            · exact ⟨by simp, by simp, hrest₂.writeBuffer, hrest₂.hasError,
                fun _ _ => ⟨hrest₂, by rw [hbuf₂, hbuf, hnil]⟩⟩
        obtain ⟨o, w, hs, hby⟩ := hnext
        refine ⟨_, _, .served hfirst hfile hs, ?_, ?_, hby.left, hby.hasError, hby.rest⟩
        · rw [hby.requests, hreq₂, List.append_assoc]
          rfl
        · rw [hby.sent, hsent₂, List.append_assoc]

theorem handleRead_serves (c : Conn) (hr : c.http.AtRest) (hdata : OnlyData c.reads)
    (hw : c.writes = []) :
    ∃ o w, Serves fs (c.http.readBuffer ++ delivered c.reads) o w ∧
      ServedBy c (handleRead fs before c) o w :=
  handleReadFuel_serves fs before _ c hr hdata hw (by omega)

end

end FlashWeb
