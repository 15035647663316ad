import FlashWeb.Connection

/-!
# What a connection sees of the kernel

`ReadFromFd` reads until the kernel has nothing more, the stream ends or the call fails, and hands
on what it got as one string. So of all the results of `read` only the bytes up to each of these
three matter: not how they were cut into chunks, and not how often a signal interrupted the call.
Of the results of `write` an interruption does not matter either. `Alike c d` says that two
connections differ at most in that, and every callback takes such a pair to such a pair.
-/

namespace FlashWeb

/-! ## What `ReadFromFd` makes of the results of `read` -/

/-- What ends a call of `ReadFromFd`. -/
inductive ReadEnd where
  | again
  | eof
  | failed
  deriving DecidableEq

/-- The bytes of one call of `ReadFromFd`, and what ends it. -/
structure ReadSegment where
  bytes : Bytes
  finish : ReadEnd
  deriving DecidableEq

/-- The calls of `ReadFromFd` one after the other; when the list is used up there is `EAGAIN`. -/
def readSegments : List ReadResult → List ReadSegment
  | [] => [⟨[], .again⟩]
  | .data chunk :: rs =>
    (readSegments rs).modifyHead fun s => { s with bytes := chunk.bytes ++ s.bytes }
  | .eintr :: rs => readSegments rs
  | .eagain :: rs => ⟨[], .again⟩ :: readSegments rs
  | .eof :: rs => ⟨[], .eof⟩ :: readSegments rs
  | .failed :: rs => ⟨[], .failed⟩ :: readSegments rs

/-- The results of `write` that end the call or take bytes. -/
def uninterrupted (ws : List WriteResult) : List WriteResult := ws.filter (· ≠ .eintr)

theorem segments_ne_nil : ∀ rs : List ReadResult, readSegments rs ≠ []
  | [] => by simp [readSegments]
  | .data chunk :: rs => by simpa [readSegments] using segments_ne_nil rs
  | .eintr :: rs => segments_ne_nil rs
  | .eagain :: rs => by simp [readSegments]
  | .eof :: rs => by simp [readSegments]
  | .failed :: rs => by simp [readSegments]

/-- All bytes that are delivered are those of the segments. -/
theorem delivered_eq_segments : ∀ rs : List ReadResult,
    delivered rs = (readSegments rs).flatMap ReadSegment.bytes
  | [] => rfl
  | .data chunk :: rs => by
    rw [delivered, delivered_eq_segments rs, readSegments]
    cases h : readSegments rs with
    | nil => exact absurd h (segments_ne_nil rs)
    | cons s ss => simp
  | .eintr :: rs => delivered_eq_segments rs
  | .eagain :: rs => by simpa [delivered, readSegments] using delivered_eq_segments rs
  | .eof :: rs => by simpa [delivered, readSegments] using delivered_eq_segments rs
  | .failed :: rs => by simpa [delivered, readSegments] using delivered_eq_segments rs

/-- The value that a call of `ReadFromFd` returns. -/
def ReadSegment.readSize (s : ReadSegment) (n : Nat) : Int :=
  if s.finish = .failed then -1 else ↑(n + s.bytes.length)

/-- **A call of `ReadFromFd` takes one segment.** -/
theorem readLoop_segments : ∀ (rs : List ReadResult) (n : Nat) (buf : Bytes),
    ∃ s ss, readSegments rs = s :: ss ∧
      (readLoop rs n buf).readSize = s.readSize n ∧
      (readLoop rs n buf).zero = decide (s.finish = .eof) ∧
      (readLoop rs n buf).inBuffer = buf ++ s.bytes ∧
      readSegments (readLoop rs n buf).reads = if ss = [] then [⟨[], .again⟩] else ss
  | [], n, buf => ⟨_, _, rfl, by simp [readLoop, ReadSegment.readSize, readSegments]⟩
  | .data chunk :: rs, n, buf => by
    obtain ⟨s, ss, hs, hsize, hzero, hbuf, hrest⟩ :=
      readLoop_segments rs (n + chunk.bytes.length) (buf ++ chunk.bytes)
    refine ⟨{ s with bytes := chunk.bytes ++ s.bytes }, ss, ?_, ?_, hzero,
      by rw [readLoop, hbuf, List.append_assoc], hrest⟩
    · rw [readSegments, hs]
      rfl
    · rw [readLoop, hsize]
      simp only [ReadSegment.readSize, List.length_append, Nat.add_assoc]
  | .eintr :: rs, n, buf => readLoop_segments rs n buf
  | .eagain :: rs, n, buf =>
    ⟨_, _, rfl, by simp [readLoop, ReadSegment.readSize, segments_ne_nil]⟩
  | .eof :: rs, n, buf => ⟨_, _, rfl, by simp [readLoop, ReadSegment.readSize, segments_ne_nil]⟩
  | .failed :: rs, n, buf => ⟨_, _, rfl, by simp [readLoop, ReadSegment.readSize, segments_ne_nil]⟩

/-- The same segments give the same result, and leave the same segments. -/
theorem readFromFd_congr {rs rs' : List ReadResult} (h : readSegments rs = readSegments rs')
    (buf : Bytes) :
    (readFromFd rs buf).readSize = (readFromFd rs' buf).readSize ∧
      (readFromFd rs buf).zero = (readFromFd rs' buf).zero ∧
      (readFromFd rs buf).inBuffer = (readFromFd rs' buf).inBuffer ∧
      readSegments (readFromFd rs buf).reads = readSegments (readFromFd rs' buf).reads := by
  obtain ⟨s, ss, hs, h1, h2, h3, h4⟩ := readLoop_segments rs 0 buf
  obtain ⟨s', ss', hs', h1', h2', h3', h4'⟩ := readLoop_segments rs' 0 buf
  rw [h, hs', List.cons.injEq] at hs
  obtain ⟨rfl, rfl⟩ := hs
  exact ⟨h1.trans h1'.symm, h2.trans h2'.symm, h3.trans h3'.symm, h4.trans h4'.symm⟩

/-! ## What `WriteToFd` makes of the results of `write` -/

/-- Two loops over `write` that end in the same way, up to interruptions to come. -/
structure WriteLoop.Same (l l' : WriteLoop) : Prop where
  failed : l'.failed = l.failed
  sent : l'.sent = l.sent
  writes : uninterrupted l'.writes = uninterrupted l.writes

theorem uninterrupted_idem (ws : List WriteResult) :
    uninterrupted (uninterrupted ws) = uninterrupted ws := by
  simp [uninterrupted, List.filter_filter]

theorem uninterrupted_cons {w : WriteResult} (hw : w ≠ .eintr) (ws : List WriteResult) :
    uninterrupted (w :: ws) = w :: uninterrupted ws := List.filter_cons_of_pos (by simpa using hw)

theorem writeLoop_nil (ws : List WriteResult) (sent : Bytes) :
    writeLoop ws [] sent = ⟨false, sent, ws⟩ := by
  cases ws <;> simp [writeLoop]

theorem writeLoopRaw_nil (ws : List WriteResult) (sent : Bytes) :
    writeLoopRaw ws [] sent = ⟨false, sent, ws⟩ := by
  cases ws <;> simp [writeLoopRaw]

/-- **Interruptions change nothing in `WriteToFd(int, std::string&)`.** -/
theorem writeLoop_uninterrupted : ∀ (ws : List WriteResult) (ptr sent : Bytes),
    (writeLoop ws ptr sent).Same (writeLoop (uninterrupted ws) ptr sent)
  | [], _, _ => ⟨rfl, rfl, rfl⟩
  | w :: ws, ptr, sent => by
    by_cases hp : ptr = []
    · rw [hp, writeLoop_nil, writeLoop_nil]
      exact ⟨rfl, rfl, uninterrupted_idem _⟩
    · cases w with
      | eintr =>
        rw [writeLoop, if_neg hp]
        exact writeLoop_uninterrupted ws ptr sent
      | eagain =>
        rw [uninterrupted_cons (by simp), writeLoop, writeLoop, if_neg hp, if_neg hp]
        exact ⟨rfl, rfl, uninterrupted_idem ws⟩
      | failed =>
        rw [uninterrupted_cons (by simp), writeLoop, writeLoop, if_neg hp, if_neg hp]
        exact ⟨rfl, rfl, uninterrupted_idem ws⟩
      | wrote k =>
        rw [uninterrupted_cons (by simp), writeLoop, writeLoop, if_neg hp, if_neg hp]
        split
        · exact ⟨rfl, rfl, uninterrupted_idem ws⟩
        · exact writeLoop_uninterrupted ws (ptr.drop k) (sent ++ ptr.take k)

/-- **Nor in `WriteToFd(int, void*, size_t)`.** -/
theorem writeLoopRaw_uninterrupted : ∀ (ws : List WriteResult) (ptr sent : Bytes),
    (writeLoopRaw ws ptr sent).Same (writeLoopRaw (uninterrupted ws) ptr sent)
  | [], _, _ => ⟨rfl, rfl, rfl⟩
  | w :: ws, ptr, sent => by
    by_cases hp : ptr = []
    · rw [hp, writeLoopRaw_nil, writeLoopRaw_nil]
      exact ⟨rfl, rfl, uninterrupted_idem _⟩
    · cases w with
      | eintr =>
        rw [writeLoopRaw, if_neg hp]
        exact writeLoopRaw_uninterrupted ws ptr sent
      | eagain =>
        rw [uninterrupted_cons (by simp), writeLoopRaw, writeLoopRaw, if_neg hp, if_neg hp]
        exact ⟨rfl, rfl, uninterrupted_idem ws⟩
      | failed =>
        rw [uninterrupted_cons (by simp), writeLoopRaw, writeLoopRaw, if_neg hp, if_neg hp]
        exact ⟨rfl, rfl, uninterrupted_idem ws⟩
      | wrote k =>
        rw [uninterrupted_cons (by simp), writeLoopRaw, writeLoopRaw, if_neg hp, if_neg hp]
        exact writeLoopRaw_uninterrupted ws (ptr.drop k) (sent ++ ptr.take k)

/-- A loop that is not changed by interruptions gives the same for results that differ in them. -/
theorem WriteLoop.Same.congr {f : List WriteResult → WriteLoop}
    (hf : ∀ ws, (f ws).Same (f (uninterrupted ws))) {ws ws' : List WriteResult}
    (h : uninterrupted ws' = uninterrupted ws) : (f ws).Same (f ws') := by
  have h1 := hf ws
  have h2 := hf ws'
  rw [h] at h2
  exact ⟨h2.failed.symm.trans h1.failed, h2.sent.symm.trans h1.sent,
    h2.writes.symm.trans h1.writes⟩

theorem writeToFd_congr {ws ws' : List WriteResult} (h : uninterrupted ws' = uninterrupted ws)
    (buf : Bytes) : (writeToFd ws' buf).ret = (writeToFd ws buf).ret ∧
      (writeToFd ws' buf).outBuffer = (writeToFd ws buf).outBuffer ∧
      (writeToFd ws' buf).sent = (writeToFd ws buf).sent ∧
      uninterrupted (writeToFd ws' buf).writes = uninterrupted (writeToFd ws buf).writes := by
  obtain ⟨hfailed, hsent, hwrites⟩ :=
    WriteLoop.Same.congr (fun ws => writeLoop_uninterrupted ws buf []) h
  unfold writeToFd
  dsimp only
  rw [hfailed, hsent]
  split <;> exact ⟨rfl, rfl, rfl, hwrites⟩

theorem writeToFdRaw_congr {ws ws' : List WriteResult} (h : uninterrupted ws' = uninterrupted ws)
    (buff : Bytes) : (writeToFdRaw ws' buff).sent = (writeToFdRaw ws buff).sent ∧
      uninterrupted (writeToFdRaw ws' buff).writes =
        uninterrupted (writeToFdRaw ws buff).writes := by
  obtain ⟨-, hsent, hwrites⟩ :=
    WriteLoop.Same.congr (fun ws => writeLoopRaw_uninterrupted ws buff []) h
  exact ⟨hsent, hwrites⟩

/-! ## Connections that differ in nothing else -/

/-- `d` is `c` with other chunks and interruptions in what the kernel will answer. -/
structure Alike (c d : Conn) : Prop where
  http : d.http = c.http
  reads : readSegments d.reads = readSegments c.reads
  writes : uninterrupted d.writes = uninterrupted c.writes
  trace : d.trace = c.trace

/-- A step that nobody can tell such connections apart by. -/
def Respects (f : Conn → Conn) : Prop := ∀ c d, Alike c d → Alike (f c) (f d)

theorem Alike.withHttp {c d : Conn} (h : Alike c d) (p : Http) :
    Alike { c with http := p } { d with http := p } := ⟨rfl, h.reads, h.writes, h.trace⟩

theorem Alike.emit {c d : Conn} (h : Alike c d) (e : Effect) : Alike (c.emit e) (d.emit e) :=
  ⟨h.http, h.reads, h.writes, by simp only [Conn.emit, h.trace]⟩

/-- A step that asks the kernel for nothing. -/
theorem respects_of_http {f : Conn → Conn} {g : Http → Http} {e : Http → List Effect}
    (hf : ∀ c, f c = { c with http := g c.http, trace := c.trace ++ e c.http }) :
    Respects f := by
  intro c d h
  rw [hf c, hf d, h.http, h.trace]
  exact ⟨rfl, h.reads, h.writes, rfl⟩

theorem respects_handleClose : Respects handleClose :=
  respects_of_http (g := fun h => { h with connectionState := .disconnected })
    (e := fun _ => [.removeFromEpoller]) fun _ => rfl

theorem respects_reset : Respects reset :=
  respects_of_http (g := fun h => { h with
      filePath := []
      processState := .stateParseUri
      headerLineState := .hStart
      headerKv := HeaderMap.empty })
    (e := fun _ => [.seperateTimer]) fun _ => rfl

theorem respects_listen (ev : EventMask) : Respects (·.listen ev) := fun c d h => by
  show Alike (c.listen ev) (d.listen ev)
  unfold Conn.listen
  rw [h.http]
  exact h.withHttp _

theorem respects_handleCurrentConn : Respects handleCurrentConn := fun c d h => by
  have h1 := h.emit .seperateTimer
  unfold handleCurrentConn
  dsimp only
  rw [Conn.emit_http, Conn.emit_http, h.http]
  split
  · split
    · have h2 := respects_listen EventMask.outEt _ _ h1
      rw [show ((d.emit .seperateTimer).listen EventMask.outEt).http =
        ((c.emit .seperateTimer).listen EventMask.outEt).http from h2.http]
      split
      · exact h2.emit _
      · exact h2.emit _
    · split
      · have h2 := respects_listen { c.http.toListenEvents with epollin := true, epollet := true }
          _ _ h1
        exact h2.emit _
      · exact respects_handleClose _ _ h1
  · split
    · split
      · exact respects_listen EventMask.outEt _ _ h1
      · exact respects_handleClose _ _ h1
    · exact h1

/-! ## Writing -/

theorem respects_flush : Respects flush := fun c d h => by
  obtain ⟨hret, hout, hsent, hws⟩ := writeToFd_congr h.writes c.http.writeBuffer
  unfold flush
  dsimp only
  rw [h.http, hret, hout, hsent]
  exact ⟨rfl, h.reads, hws, by simp only [Conn.emit, h.trace]⟩

theorem respects_handleWrite : Respects handleWrite := fun c d h => by
  have hflush := respects_flush _ _ (respects_flush _ _ h)
  unfold handleWrite
  dsimp only
  rw [h.http]
  split
  · rw [hflush.http]
    split
    · exact respects_listen _ _ _ hflush
    · exact hflush
  · exact h

theorem respects_writeResponse : Respects writeResponse := fun c d h => by
  unfold writeResponse
  rw [h.http]
  split
  · exact respects_handleWrite c d h
  · exact h

theorem respects_handleError (errCode : Nat) (errMsg : Bytes) :
    Respects (handleError errCode errMsg) := fun c d h => by
  obtain ⟨hheader, hws⟩ := writeToFdRaw_congr h.writes (errorHeader errCode errMsg)
  obtain ⟨hbody, hws'⟩ := writeToFdRaw_congr hws (errorBody errCode errMsg)
  unfold handleError
  dsimp only
  rw [h.http, hheader, hbody]
  exact ⟨rfl, h.reads, hws', by simp only [Conn.emit, h.trace]⟩

theorem respects_badRequest : Respects badRequest := fun c d h => by
  unfold badRequest
  rw [h.http]
  exact respects_handleError _ _ _ _ (h.withHttp _)

theorem respects_reject : Respects reject := fun _ _ h =>
  respects_badRequest _ _ (h.emit .malformed)

/-! ## Parsing and processing -/

section

variable (fs : FileSystem) (before : UInt8)

theorem processRequest_alike {c d : Conn} (h : Alike c d) :
    (processRequest fs d).1 = (processRequest fs c).1 ∧
      Alike (processRequest fs c).2 (processRequest fs d).2 := by
  by_cases hm : c.http.method = some .methodPost
  · rw [processRequest, processRequest, if_pos hm, if_pos (h.http ▸ hm)]
    exact ⟨rfl, h⟩
  · cases hf : fs.file (cStr c.http.filePath) with
    | some data =>
      rw [processRequest_served hm hf, processRequest_served (h.http ▸ hm) (h.http ▸ hf), h.http]
      exact ⟨rfl, h.withHttp _⟩
    | none =>
      rw [processRequest_refused hm hf, processRequest_refused (h.http ▸ hm) (h.http ▸ hf), h.http]
      exact ⟨rfl, respects_handleError _ _ _ _ (h.withHttp _)⟩

theorem respects_stageProcess : Respects (stageProcess fs) := fun c d h => by
  obtain ⟨hv, halike⟩ := processRequest_alike fs h
  unfold stageProcess
  rw [h.http]
  split
  · cases hc : processRequest fs c with
    | mk verdict c' =>
      cases hd : processRequest fs d with
      | mk verdict' d' =>
        rw [hc, hd] at hv halike
        obtain rfl : verdict' = verdict := hv
        cases verdict' with
        | none => exact halike
        | some verdict =>
          cases verdict with
          | processError => exact respects_badRequest _ _ (halike.emit _)
          | processSuccess =>
            have hdone := halike.emit (.process c.http.request true)
            have hhttp : d'.http = c'.http := halike.http
            have hend := hdone.withHttp { c'.http with processState := .stateFinish }
            show Alike (Conn.enter _ _) (Conn.enter _ _)
            unfold Conn.enter
            rw [Conn.emit_http, Conn.emit_http, hhttp]
            exact hend
  · exact h

theorem respects_stageHeader : Respects (stageHeader fs before) := fun c d h => by
  unfold stageHeader
  rw [h.http]
  split
  · cases parseHeaders before c.http with
    | mk verdict p =>
      cases verdict with
      | parseHeaderAgain => exact h.withHttp p
      | parseHeaderError => exact respects_reject _ _ (h.withHttp p)
      | parseHeaderSuccess =>
        dsimp only
        cases p.method with
        | none => exact respects_stageProcess fs _ _ (h.withHttp p)
        | some m =>
          cases m with
          | methodPost => exact respects_stageProcess fs _ _ (h.withHttp _)
          | methodGet => exact respects_stageProcess fs _ _ (h.withHttp _)
  · exact respects_stageProcess fs c d h

theorem respects_stageUri : Respects (stageUri fs before) := fun c d h => by
  unfold stageUri
  rw [h.http]
  split
  · cases parseUri c.http with
    | mk verdict p =>
      cases verdict with
      | parseUriAgain => exact h.withHttp p
      | parseUriError => exact respects_reject _ _ (h.withHttp p)
      | parseUriSuccess => exact respects_stageHeader fs before _ _ (h.withHttp _)
  · exact respects_stageHeader fs before c d h

/-! ## The callbacks -/

theorem respects_readAndParse : Respects (readAndParse fs before) := fun c d h => by
  obtain ⟨hsize, hzero, hbuf, hreads⟩ := readFromFd_congr h.reads c.http.readBuffer
  have hread : ∀ p,
      Alike { c with http := p, reads := (readFromFd c.reads c.http.readBuffer).reads }
      { d with http := p, reads := (readFromFd d.reads c.http.readBuffer).reads } :=
    fun p => ⟨rfl, hreads, h.writes, h.trace⟩
  unfold readAndParse
  dsimp only
  rw [h.http, hsize, hzero, hbuf]
  split
  · exact hread _
  · split
    · exact respects_reject _ _ (hread _)
    · split
      · split
        · exact hread _
        · exact respects_stageUri fs before _ _ (hread _)
      · exact respects_stageUri fs before _ _ (hread _)

theorem respects_handleReadBody {again : Conn → Conn} (hagain : Respects again) :
    Respects (handleReadBody fs before again) := fun c d h => by
  have h1 := respects_readAndParse fs before c d h
  have h2 := respects_writeResponse _ _ h1
  have h3 := respects_reset _ _ h2
  unfold handleReadBody
  dsimp only
  rw [h.http, h1.http, h2.http, h3.http]
  split
  · split
    · split
      · exact hagain _ _ h3
      · exact h3
    · split
      · exact respects_listen _ _ _ h2
      · exact h2
  · exact respects_handleClose _ _ h1

theorem respects_handleRead : Respects (handleRead fs before) := fun c d h => by
  have hfuel : ∀ n, Respects (handleReadFuel fs before n) := by
    intro n
    induction n with
    | zero => exact fun _ _ h => h
    | succ n ih => exact respects_handleReadBody fs before ih
  have hpending : d.pending = c.pending := by
    rw [Conn.pending, Conn.pending, h.http, delivered_eq_segments, delivered_eq_segments, h.reads]
  unfold handleRead
  rw [hpending]
  exact hfuel _ _ _ h

theorem respects_handleEvents (active : EventMask) :
    Respects (handleEvents fs before active) := fun c d h => by
  unfold handleEvents
  split
  · exact h
  · have h1 : Alike (if active.epollout then handleWrite c else c)
        (if active.epollout then handleWrite d else d) := by
      split
      · exact respects_handleWrite c d h
      · exact h
    dsimp only
    refine respects_handleCurrentConn _ _ ?_
    split
    · exact respects_handleRead fs before _ _ h1
    · exact h1

end

/-! ## Whole runs -/

/-- The kernel answers `d'` as it answers `d`, up to chunks and interruptions. -/
structure Dispatch.Alike (d d' : Dispatch) : Prop where
  active : d'.active = d.active
  reads : readSegments d'.reads = readSegments d.reads
  writes : uninterrupted d'.writes = uninterrupted d.writes
  fs : d'.fs = d.fs
  before : d'.before = d.before

theorem Dispatch.Alike.run {d d' : Dispatch} (h : d.Alike d') (c : Http) :
    FlashWeb.Alike (d.run c) (d'.run c) := by
  unfold Dispatch.run
  rw [h.active, h.fs, h.before]
  exact respects_handleEvents _ _ _ _ _ ⟨rfl, h.reads, h.writes, rfl⟩

theorem Dispatch.Alike.dispatch {d d' : Dispatch} (h : d.Alike d') (s : Session) :
    s.dispatch d' = s.dispatch d := by
  unfold Session.dispatch
  rw [(h.run s.http).http, (h.run s.http).trace]

/--
**Chunks and signals do not show.** Two runs in whose events the kernel delivers the same bytes up
to each `EAGAIN`, each end of the stream and each failure, and takes the same bytes, end in the same
state and did the same on the way, whatever the sizes of the chunks and wherever a signal came in.
-/
theorem kernel_details_hidden {ds ds' : List Dispatch} (h : List.Forall₂ Dispatch.Alike ds ds') :
    ∀ s : Session, ds'.foldl Session.dispatch s = ds.foldl Session.dispatch s := by
  induction h with
  | nil => exact fun _ => rfl
  | cons hd _ ih =>
    intro s
    rw [List.foldl_cons, List.foldl_cons, hd.dispatch s]
    exact ih _

/-- The plain request in two pieces, with a signal before each of them and one before the answer. -/
def plainInPieces : Dispatch where
  active := EventMask.inEt
  reads := [.eintr, .data ⟨text "GET / HTT", by decide, by decide⟩, .eintr,
    .data ⟨text "P/1.1rA: b\r\n\r\n", by decide, by decide⟩]
  writes := [.eintr]
  fs := .blank
  before := 0

theorem plainInPieces_alike : (Dispatch.bringing .blank plainRequest).Alike plainInPieces :=
  ⟨rfl, by decide, rfl, rfl, rfl⟩

/-- It is served like the request in one piece. -/
theorem kernel_details_hidden_plainRequest :
    [plainInPieces].foldl Session.dispatch (Session.opened true) =
      [Dispatch.bringing .blank plainRequest].foldl Session.dispatch (Session.opened true) :=
  kernel_details_hidden (.cons plainInPieces_alike .nil) (Session.opened true)

end FlashWeb
