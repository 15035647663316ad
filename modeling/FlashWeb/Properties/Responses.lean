import FlashWeb.Properties.EndOfStream
import FlashWeb.Properties.Output
import Mathlib.Data.List.Forall2

/-!
# One response for each request

A response goes through `write_buffer_`, an error page straight to the descriptor. As long as no
page is written the bytes on the wire and those in the buffer together are the responses so far, in
the order of their requests. A page keeps that order only if nothing is queued, its header is taken
whole or its body not at all, and it is the only one for its request; and a write that fails keeps
it only if the kernel had taken nothing of the buffer, which `WriteToFd` then sends again.
`Dispatch.Orderly` follows what the parser finds in the bytes of an event, and what the kernel
answers, and says that the event is of this kind. A request for a file that cannot be read is
answered by two pages, and hardly ever is.
-/

namespace FlashWeb

open Lib

/-! ## What is to be answered, and how -/

/-- What a client is owed an answer for. -/
inductive Demand where
  /-- a request, and the contents of its file if it can be read -/
  | request (r : Request) (file : Option Bytes)
  /-- input that is no request, or that cannot be read -/
  | malformed

/-- What an effect shows that there is to answer. -/
def Effect.demand (fs : FileSystem) : Effect → Option Demand
  | .process r _ => some (.request r (fs.file (cStr r.filePath)))
  | .malformed => some .malformed
  | _ => none

/-- What there was to answer in an event, in order. -/
def demandsOf (fs : FileSystem) (log : List Effect) : List Demand :=
  log.filterMap (Effect.demand fs)

@[simp] theorem demandsOf_append (fs : FileSystem) (t u : List Effect) :
    demandsOf fs (t ++ u) = demandsOf fs t ++ demandsOf fs u := List.filterMap_append

@[simp] theorem demandsOf_cons (fs : FileSystem) (e : Effect) (t : List Effect) :
    demandsOf fs (e :: t) = (e.demand fs).toList ++ demandsOf fs t := by
  cases h : e.demand fs <;> simp [demandsOf, h]

@[simp] theorem demandsOf_nil (fs : FileSystem) : demandsOf fs [] = [] := rfl

/-- What there was to answer in a run, in order. -/
def demandsSeen (seen : List (Dispatch × List Effect)) : List Demand :=
  seen.flatMap fun p => demandsOf p.1.fs p.2

/-- The bytes handed to `write` in a run, in order. -/
def bytesSeen (seen : List (Dispatch × List Effect)) : Bytes := seen.flatMap fun p => bytesSent p.2

/--
A complete response: that of `ProcessRequest` with the bytes of the file, a page if there is no file
to read, and the `400` page for anything that is no request.
-/
inductive Answers : Demand → Bytes → Prop where
  | ok (r : Request) (data : Bytes) : Answers (.request r (some data)) (okResponse r data)
  | notFound (r : Request) : Answers (.request r none) (errorPage 404 (text "Not Found!"))
  | noFile (r : Request) : Answers (.request r none) (errorPage 400 (text "Bad Request"))
  | malformed : Answers .malformed (errorPage 400 (text "Bad Request"))

/-- The bytes are the beginning of one response for each demand, in order. -/
def InOrder (demands : List Demand) (sent : Bytes) : Prop :=
  ∃ responses, List.Forall₂ Answers demands responses ∧ sent <+: responses.flatten

/-- The bytes handed to `write` in a run are the beginning of one response for each demand. -/
def OneResponseEach (seen : List (Dispatch × List Effect)) : Prop :=
  InOrder (demandsSeen seen) (bytesSeen seen)

/-! ## What the kernel takes -/

/-- The bytes that are queued, and what `write` will answer. -/
structure Outlet where
  queue : Bytes
  writes : List WriteResult

namespace Outlet

variable (o : Outlet)

/-- One call of `WriteToFd` for the queue. -/
def write : Outlet :=
  ⟨(writeToFd o.writes o.queue).outBuffer, (writeToFd o.writes o.queue).writes⟩

/-- The two calls of `HandleWrite`. -/
def written : Outlet := o.write.write

/-- Neither of the two calls breaks off. -/
def WritesOn : Prop := ¬ BreaksOff o.writes o.queue ∧ ¬ BreaksOff o.write.writes o.write.queue

/-- The queue with `s` behind it. -/
def push (s : Bytes) : Outlet := { o with queue := o.queue ++ s }

end Outlet

/-- What is taken of the header and of the body of a page, and what `write` answers from then on. -/
structure PageWrite where
  header : Bytes
  body : Bytes
  writes : List WriteResult

/-- The two calls of `WriteToFd` for a page. -/
def writePage (errCode : Nat) (errMsg : Bytes) (writes : List WriteResult) : PageWrite :=
  let header := writeToFdRaw writes (errorHeader errCode errMsg)
  let body := writeToFdRaw header.writes (errorBody errCode errMsg)
  ⟨header.sent, body.sent, body.writes⟩

/-- Nothing of a page is taken. -/
def NoPage (errCode : Nat) (errMsg : Bytes) (writes : List WriteResult) : Prop :=
  (writePage errCode errMsg writes).header = [] ∧ (writePage errCode errMsg writes).body = []

/-- Its header is taken whole, or nothing of its body. -/
def PageInOrder (errCode : Nat) (errMsg : Bytes) (writes : List WriteResult) : Prop :=
  (writePage errCode errMsg writes).header = errorHeader errCode errMsg ∨
    (writePage errCode errMsg writes).body = []

/-- Nothing of the page is taken, or it is taken in order and nothing is queued. -/
def Outlet.TakesPage (o : Outlet) (errCode : Nat) (errMsg : Bytes) : Prop :=
  NoPage errCode errMsg o.writes ∨ (o.queue = [] ∧ PageInOrder errCode errMsg o.writes)

/-- One of the two pages for a missing file is taken like that, and nothing of the other. -/
def Outlet.TakesOnePage (o : Outlet) : Prop :=
  let behind : Outlet := { o with writes := (writePage 404 (text "Not Found!") o.writes).writes }
  (NoPage 404 (text "Not Found!") o.writes ∧ behind.TakesPage 400 (text "Bad Request")) ∨
    (o.TakesPage 404 (text "Not Found!") ∧ NoPage 400 (text "Bad Request") behind.writes)

/-! ## Events that keep the order -/

/-- What was read is parsed: `read` has not failed, and there is more than the end of the stream. -/
def ReadOutcome.Parses (r : ReadOutcome) : Prop :=
  ¬ r.readSize < 0 ∧ ¬ (r.zero = true ∧ r.readSize = 0)

/--
The activations of `HandleRead` keep the order. They find `buf` in the buffer and read `reads`;
`finds` is what the parser finds in the bytes, for the first of them from where the activation
before left it.
-/
inductive Orderly (fs : FileSystem) :
    (finds : Bytes → FirstRequest) → Outlet → (buf : Bytes) → List ReadResult → Prop where
  | failed {finds o buf reads} : (readFromFd reads buf).readSize < 0 →
      o.TakesPage 400 (text "Bad Request") → Orderly fs finds o buf reads
  | ended {finds o buf reads} : (readFromFd reads buf).zero = true →
      (readFromFd reads buf).readSize = 0 → o.WritesOn → Orderly fs finds o buf reads
  | waiting {finds o buf reads} : (readFromFd reads buf).Parses →
      finds (readFromFd reads buf).inBuffer = .waiting → o.WritesOn → Orderly fs finds o buf reads
  | refused {finds o buf reads} : (readFromFd reads buf).Parses →
      finds (readFromFd reads buf).inBuffer = .refused →
      o.TakesPage 400 (text "Bad Request") → Orderly fs finds o buf reads
  | missing {finds o buf reads r rest} : (readFromFd reads buf).Parses →
      finds (readFromFd reads buf).inBuffer = .get r rest → fs.file (cStr r.filePath) = none →
      o.TakesOnePage → Orderly fs finds o buf reads
  | last {finds o buf reads r rest data} : (readFromFd reads buf).Parses →
      finds (readFromFd reads buf).inBuffer = .get r rest →
      fs.file (cStr r.filePath) = some data → (o.push (okResponse r data)).WritesOn →
      rest = [] ∨ (readFromFd reads buf).zero = true → Orderly fs finds o buf reads
  | next {finds o buf reads r rest data} : (readFromFd reads buf).Parses →
      finds (readFromFd reads buf).inBuffer = .get r rest →
      fs.file (cStr r.filePath) = some data → (o.push (okResponse r data)).WritesOn →
      rest ≠ [] → (readFromFd reads buf).zero = false →
      Orderly fs firstRequest (o.push (okResponse r data)).written rest
        (readFromFd reads buf).reads →
      Orderly fs finds o buf reads

/-- What `write` meets when `HandleRead` is called for an event. -/
def Dispatch.outlet (d : Dispatch) (h : Http) : Outlet :=
  if d.active.epollout then Outlet.written ⟨h.writeBuffer, d.writes⟩ else ⟨h.writeBuffer, d.writes⟩

/-- What is read keeps the order; a connection that is `DISCONNECTING` throws it away. -/
def Dispatch.ReadsOrderly (d : Dispatch) (h : Http) : Prop :=
  if h.connectionState = .disconnecting then (d.outlet h).WritesOn
  else
    Orderly d.fs (fun buf => ({ h with readBuffer := buf } : Http).nextRequest d.before)
      (d.outlet h) h.readBuffer d.reads

/-- An event keeps the order: a peer that is gone gets nothing, and the callbacks go on as above. -/
def Dispatch.Orderly (d : Dispatch) (h : Http) : Prop :=
  ¬ (d.active.epollhup ∧ ¬ d.active.epollin) →
    (d.active.epollout → Outlet.WritesOn ⟨h.writeBuffer, d.writes⟩) ∧
    (d.active.epollin ∨ d.active.epollpri ∨ d.active.epollrdhup → d.ReadsOrderly h)

/-! ## The bytes so far -/

/-- The two ways a page can be taken leave nothing or its beginning on the wire. -/
theorem Outlet.TakesPage.taken {o : Outlet} {errCode : Nat} {errMsg : Bytes}
    (h : o.TakesPage errCode errMsg) :
    (writePage errCode errMsg o.writes).header ++ (writePage errCode errMsg o.writes).body = [] ∨
      o.queue = [] ∧ (writePage errCode errMsg o.writes).header ++
        (writePage errCode errMsg o.writes).body <+: errorPage errCode errMsg := by
  have hheader : (writePage errCode errMsg o.writes).header <+: errorHeader errCode errMsg :=
    writeToFdRaw_sent _ _
  have hbody : (writePage errCode errMsg o.writes).body <+: errorBody errCode errMsg :=
    writeToFdRaw_sent _ _
  rcases h with ⟨hh, hb⟩ | ⟨hq, hh | hb⟩
  · exact Or.inl (by rw [hh, hb]; rfl)
  · refine Or.inr ⟨hq, ?_⟩
    rw [hh]
    exact (List.prefix_append_right_inj _).mpr hbody
  · refine Or.inr ⟨hq, ?_⟩
    rw [hb, List.append_nil]
    exact hheader.trans (List.prefix_append _ _)

theorem Outlet.written_nil {o : Outlet} (h : o.queue = []) : o.written = o := by
  have hwrite : o.write = o := by
    obtain ⟨queue, writes⟩ := o
    obtain rfl : queue = [] := h
    cases writes <;> rfl
  rw [Outlet.written, hwrite, hwrite]

/-- What `write` meets in a connection. -/
def Conn.outlet (c : Conn) : Outlet := ⟨c.http.writeBuffer, c.writes⟩

theorem handleWrite_outlet {c : Conn} (he : c.http.hasError = false)
    (hc : c.http.connectionState ≠ .disconnected) :
    (handleWrite c).outlet = c.outlet.written := by
  unfold handleWrite
  rw [if_pos ⟨he, hc⟩]
  dsimp only
  split <;> rfl

theorem writeResponse_outlet {c : Conn} (he : c.http.hasError = false)
    (hc : c.http.connectionState ≠ .disconnected) :
    (writeResponse c).outlet = c.outlet.written := by
  unfold writeResponse
  split
  · exact handleWrite_outlet he hc
  · next h =>
    have hnil : c.outlet.queue = [] :=
      List.length_eq_zero_iff.mp (Nat.le_zero.mp (Nat.le_of_not_lt h))
    exact (Outlet.written_nil hnil).symm

theorem handleWrite_demands (fs : FileSystem) (c : Conn) :
    demandsOf fs (handleWrite c).trace = demandsOf fs c.trace := by
  have hflush : ∀ c : Conn, demandsOf fs (flush c).trace = demandsOf fs c.trace := fun c => by
    simp [flush, Effect.demand]
  unfold handleWrite
  split
  · dsimp only
    split
    · exact (hflush _).trans (hflush c)
    · exact (hflush _).trans (hflush c)
  · rfl

section

variable (fs : FileSystem) (demands : List Demand) (sent : Bytes)

/--
What is sent and what is queued are one response for each demand. What there was before the event is
`demands` and `sent`.
-/
def Conn.AllAnswered (c : Conn) : Prop :=
  ∃ responses, List.Forall₂ Answers (demands ++ demandsOf fs c.trace) responses ∧
    sent ++ c.output = responses.flatten

/-- The same at the end of an event; after an error what is sent is the beginning of them. -/
structure Conn.Settles (c : Conn) : Prop where
  inOrder : InOrder (demands ++ demandsOf fs c.trace) (sent ++ bytesSent c.trace)
  queued : c.http.hasError = false → c.AllAnswered fs demands sent

variable {fs demands sent} {c d : Conn}

namespace Conn.AllAnswered

theorem settles (h : c.AllAnswered fs demands sent) : c.Settles fs demands sent := by
  refine ⟨?_, fun _ => h⟩
  obtain ⟨responses, hans, hall⟩ := h
  refine ⟨responses, hans, c.http.writeBuffer, ?_⟩
  rw [← hall, Conn.output, List.append_assoc]

/-- A step that answers nothing and keeps all bytes. -/
theorem of_same (h : c.AllAnswered fs demands sent)
    (hd : demandsOf fs d.trace = demandsOf fs c.trace) (ho : d.output = c.output) :
    d.AllAnswered fs demands sent := by
  obtain ⟨responses, hans, hall⟩ := h
  exact ⟨responses, by rw [hd]; exact hans, by rw [ho]; exact hall⟩

theorem handleWrite (h : c.AllAnswered fs demands sent) (hw : c.outlet.WritesOn) :
    (handleWrite c).AllAnswered fs demands sent :=
  h.of_same (handleWrite_demands fs c) (handleWrite_keeps fun _ => hw)

theorem writeResponse (h : c.AllAnswered fs demands sent) (hw : c.outlet.WritesOn) :
    (writeResponse c).AllAnswered fs demands sent := by
  unfold FlashWeb.writeResponse
  split
  · exact h.handleWrite hw
  · exact h

/-- A response is queued behind the others. -/
theorem served (h : c.AllAnswered fs demands sent) {data : Bytes}
    (hf : fs.file (cStr c.http.filePath) = some data) :
    (served c data).AllAnswered fs demands sent := by
  obtain ⟨responses, hans, hall⟩ := h
  have hdemand : (Effect.process c.http.request true).demand fs =
      some (.request c.http.request (some data)) := by
    rw [← hf]
    rfl
  have houtput : (FlashWeb.served c data).output =
      c.output ++ okResponse c.http.request data := by
    simp [FlashWeb.served, Conn.output, Effect.sent]
  refine ⟨responses ++ [okResponse c.http.request data], ?_, ?_⟩
  · rw [FlashWeb.served, Conn.emit_trace, demandsOf_append, ← List.append_assoc, demandsOf_cons,
      hdemand]
    exact List.rel_append hans (.cons (.ok _ _) .nil)
  · rw [houtput, ← List.append_assoc, hall, List.flatten_concat]

/-- A page, of which nothing or the beginning is taken, comes where its response belongs. -/
theorem page (h : c.AllAnswered fs demands sent) {demand : Demand} {response taken : Bytes}
    (ha : Answers demand response)
    (ht : taken = [] ∨ c.http.writeBuffer = [] ∧ taken <+: response) :
    InOrder (demands ++ (demandsOf fs c.trace ++ [demand]))
      (sent ++ (bytesSent c.trace ++ taken)) := by
  obtain ⟨responses, hans, hall⟩ := h
  rw [Conn.output, ← List.append_assoc] at hall
  refine ⟨responses ++ [response], ?_, ?_⟩
  · rw [← List.append_assoc]
    exact List.rel_append hans (.cons ha .nil)
  · rw [← List.append_assoc, List.flatten_concat]
    rcases ht with rfl | ⟨hq, ht⟩
    · rw [List.append_nil, ← hall, List.append_assoc]
      exact List.prefix_append _ _
    · rw [hq, List.append_nil] at hall
      rw [hall]
      exact (List.prefix_append_right_inj _).mpr ht

/-- Input that is no request gets one page. -/
theorem rejected (h : c.AllAnswered fs demands sent)
    (hp : c.outlet.TakesPage 400 (text "Bad Request")) :
    (c.emit .malformed).failWith.Settles fs demands sent := by
  have htrace : (c.emit .malformed).failWith.trace = c.trace ++ [.malformed,
      .page 400 (text "Bad Request") c.http.writeBuffer
        (writePage 400 (text "Bad Request") c.writes).header
        (writePage 400 (text "Bad Request") c.writes).body, .removeFromEpoller] := by
    simp only [Conn.failWith, handleClose, badRequest, handleError, Conn.emit_trace,
      List.append_assoc]
    rfl
  refine ⟨?_, fun he => absurd he (by simp [Conn.failWith, handleClose, badRequest, handleError])⟩
  have hpage := h.page .malformed hp.taken
  rw [htrace]
  simpa [Effect.demand, Effect.sent, Conn.outlet] using hpage

/-- Of the two pages for a missing file one is the response. -/
theorem refused (h : c.AllAnswered fs demands sent) (hf : fs.file (cStr c.http.filePath) = none)
    (hp : c.outlet.TakesOnePage) :
    (refused fs c).failWith.Settles fs demands sent := by
  have hfile : fs.file (cStr c.http.request.filePath) = none := hf
  let first := writePage 404 (text "Not Found!") c.writes
  let second := writePage 400 (text "Bad Request") first.writes
  have hdemands : demandsOf fs (FlashWeb.refused fs c).failWith.trace =
      demandsOf fs c.trace ++ [.request c.http.request none] := by
    simp [FlashWeb.refused, Conn.failWith, handleClose, badRequest, handleError, Effect.demand,
      hfile]
  have hsent : bytesSent (FlashWeb.refused fs c).failWith.trace = bytesSent c.trace ++
      (first.header ++ first.body ++ (second.header ++ second.body)) := by
    simp [FlashWeb.refused, Conn.failWith, handleClose, badRequest, handleError, Effect.sent,
      first, second, writePage]
  refine ⟨?_, fun he => absurd he (by simp [Conn.failWith, handleClose, badRequest, handleError])⟩
  rw [hdemands, hsent]
  rcases hp with ⟨⟨hh, hb⟩, hp⟩ | ⟨hp, hh, hb⟩
  · rw [show first.header = [] from hh, show first.body = [] from hb]
    exact h.page (.noFile _) hp.taken
  · rw [show second.header = [] from hh, show second.body = [] from hb, List.append_nil,
      List.append_nil]
    exact h.page (.notFound _) hp.taken

end Conn.AllAnswered

end

/-! ## Activations -/

section

variable {fs : FileSystem} {before : UInt8} {demands : List Demand} {sent : Bytes}

/-- The connection when `ReadFromFd` has returned `r`. -/
def Conn.got (c : Conn) (r : ReadOutcome) : Conn :=
  { c with
    http := ({ c.http with readBuffer := r.inBuffer } : Http).put
      (if r.zero then .disconnecting else c.http.connectionState) c.http.processState
    reads := r.reads }

/-- `read` failed. -/
theorem readAndParse_failed {c : Conn} (hnd : c.http.connectionState ≠ .disconnecting)
    (hf : (readFromFd c.reads c.http.readBuffer).readSize < 0) :
    readAndParse fs before c = reject (c.parsed { c.http with
        readBuffer := (readFromFd c.reads c.http.readBuffer).inBuffer }
      (readFromFd c.reads c.http.readBuffer).reads) := by
  unfold readAndParse
  dsimp only
  rw [if_neg hnd, if_pos hf]
  rfl

/-- There was nothing but the end of the stream. -/
theorem readAndParse_ended {c : Conn} (hnd : c.http.connectionState ≠ .disconnecting)
    (hz : (readFromFd c.reads c.http.readBuffer).zero = true)
    (hs : (readFromFd c.reads c.http.readBuffer).readSize = 0) :
    readAndParse fs before c = c.got (readFromFd c.reads c.http.readBuffer) := by
  unfold readAndParse Conn.got
  dsimp only
  rw [if_neg hnd, if_neg (by omega), if_pos hz, if_pos hs, hz]
  rfl

/-- What is read on a connection that is `DISCONNECTING` is thrown away. -/
theorem readAndParse_disconnecting {c : Conn} (hd : c.http.connectionState = .disconnecting) :
    readAndParse fs before c = c.parsed { c.http with readBuffer := [] }
      (readFromFd c.reads c.http.readBuffer).reads := by
  unfold readAndParse
  dsimp only
  rw [if_pos hd]
  rfl

theorem readAndParse_parses {c : Conn} (hnd : c.http.connectionState ≠ .disconnecting)
    (hp : (readFromFd c.reads c.http.readBuffer).Parses) :
    readAndParse fs before c =
      stageUri fs before (c.got (readFromFd c.reads c.http.readBuffer)) := by
  unfold readAndParse Conn.got
  generalize readFromFd c.reads c.http.readBuffer = r at hp
  dsimp only
  rw [if_neg hnd, if_neg hp.1]
  cases hz : r.zero with
  | true =>
    rw [if_pos rfl, if_neg fun h => hp.2 ⟨hz, h⟩]
    rfl
  | false => rfl

/-- The end of the stream is noted in the connection's state. -/
theorem got_connectionState (c : Conn) (r : ReadOutcome) : (c.got r).http.connectionState =
    if r.zero then .disconnecting else c.http.connectionState := rfl

theorem Http.Live.got {c : Conn} (hl : c.http.Live) (r : ReadOutcome) : (c.got r).http.Live := by
  refine ⟨hl.noError, ?_, hl.between⟩
  rw [got_connectionState]
  split
  · simp
  · exact hl.notClosed

theorem Conn.AllAnswered.reset {c : Conn} (h : c.AllAnswered fs demands sent) :
    (reset c).AllAnswered fs demands sent :=
  h.of_same (by simp [FlashWeb.reset, Effect.demand])
    (by simp [FlashWeb.reset, Conn.output, Effect.sent])

theorem Conn.AllAnswered.listen {c : Conn} (h : c.AllAnswered fs demands sent) (ev : EventMask) :
    (c.listen ev).AllAnswered fs demands sent :=
  h.of_same rfl rfl

/-- What was read is parsed: the stages act on what the parser finds in it. -/
theorem finds_got (fs : FileSystem) {c : Conn} (hl : c.http.Live)
    (hnd : c.http.connectionState ≠ .disconnecting)
    (hp : (readFromFd c.reads c.http.readBuffer).Parses) {finds : Bytes → FirstRequest}
    (hfinds : ∀ s, ({ c.http with readBuffer := s } : Http).nextRequest before = finds s)
    {found : FirstRequest}
    (hfound : finds (readFromFd c.reads c.http.readBuffer).inBuffer = found) :
    Finds fs (c.got (readFromFd c.reads c.http.readBuffer)) found (readAndParse fs before c) := by
  have hnext : (c.got (readFromFd c.reads c.http.readBuffer)).http.nextRequest before = found := by
    rw [← hfound, ← hfinds]
    exact nextRequest_put before { c.http with
      readBuffer := (readFromFd c.reads c.http.readBuffer).inBuffer } _
  rw [readAndParse_parses hnd hp, ← hnext]
  exact stageUri_finds fs before (hl.got _).between

/-- An activation without a request writes what is queued. -/
theorem settles_waiting {c d : Conn} (hl : c.http.Live) (hread : readAndParse fs before c = d)
    (hd : d.http.Live) (hall : d.AllAnswered fs demands sent) (hw : d.outlet.WritesOn) :
    (handleRead fs before c).Settles fs demands sent := by
  obtain ⟨ev, hout⟩ := handleReadBody_waiting fs before hread hd.noError hd.notClosed hd.between
    (handleRead fs before)
  rw [handleRead_eq fs before c hl, hout]
  exact ((hall.writeResponse hw).listen ev).settles

/-- Parsing sends nothing and queues nothing. -/
theorem Conn.AllAnswered.parsed {c : Conn} {p : Http} (hc : c.AllAnswered fs demands sent)
    (hf : ParserFrame c.http p) : ({ c with http := p } : Conn).AllAnswered fs demands sent := by
  refine hc.of_same rfl ?_
  rw [Conn.output, hf.writeBuffer]
  rfl

theorem outlet_parsed {c : Conn} {p : Http} (hf : ParserFrame c.http p) :
    ({ c with http := p } : Conn).outlet = c.outlet := by
  unfold Conn.outlet
  rw [← hf.writeBuffer]

/-- A response that is queued and written, and `reset`. -/
theorem answered_served {c : Conn} {p : Http} {data : Bytes} (hc : c.AllAnswered fs demands sent)
    (hf : ParserFrame c.http p) (hfile : fs.file (cStr p.filePath) = some data)
    (hw : (c.outlet.push (okResponse p.request data)).WritesOn) :
    (reset (writeResponse (served { c with http := p } data))).AllAnswered fs demands sent := by
  have hout : (served { c with http := p } data).outlet =
      c.outlet.push (okResponse p.request data) := by
    rw [← outlet_parsed hf]
    rfl
  exact (((hc.parsed hf).served hfile).writeResponse (hout ▸ hw)).reset

/-- **The activations that keep the order answer one demand each.** -/
theorem Orderly.handleRead {finds : Bytes → FirstRequest} {o : Outlet} {buf : Bytes}
    {reads : List ReadResult} (h : Orderly fs finds o buf reads) :
    ∀ {c : Conn}, c.http.Live → c.http.connectionState ≠ .disconnecting → c.outlet = o →
      c.http.readBuffer = buf → c.reads = reads →
      (∀ s, ({ c.http with readBuffer := s } : Http).nextRequest before = finds s) →
      c.AllAnswered fs demands sent → (handleRead fs before c).Settles fs demands sent := by
  induction h with
  | failed hfail hpage =>
    rintro c hl hnd rfl rfl rfl - hc
    rw [handleRead_eq fs before c hl,
      handleReadBody_failed fs before (readAndParse_failed hnd hfail)]
    exact Conn.AllAnswered.rejected (c := c.parsed _ _) hc hpage
  | ended hzero hsize hw =>
    rintro c hl hnd rfl rfl rfl - hc
    exact settles_waiting hl (readAndParse_ended hnd hzero hsize) (hl.got _) hc hw
  | waiting hp hfound hw =>
    rintro c hl hnd rfl rfl rfl hfinds hc
    have hstage := finds_got fs hl hnd hp hfinds hfound
    generalize hread : readAndParse fs before c = out at hstage
    cases hstage with
    | waiting p hf hb =>
      have hlive := hl.got (readFromFd c.reads c.http.readBuffer)
      refine settles_waiting hl hread ⟨hf.hasError.trans hlive.noError, ?_, hb⟩ ?_ ?_
      · rw [hf.connectionState]
        exact hlive.notClosed
      · exact Conn.AllAnswered.parsed (c := c.got _) hc hf
      · rw [outlet_parsed hf]
        exact hw
  | refused hp hfound hpage =>
    rintro c hl hnd rfl rfl rfl hfinds hc
    have hstage := finds_got fs hl hnd hp hfinds hfound
    generalize hread : readAndParse fs before c = out at hstage
    cases hstage with
    | refused p hf =>
      rw [handleRead_eq fs before c hl, handleReadBody_failed fs before hread]
      refine Conn.AllAnswered.rejected (Conn.AllAnswered.parsed (c := c.got _) hc hf) ?_
      rw [outlet_parsed hf]
      exact hpage
  | missing hp hfound hfile hpage =>
    rintro c hl hnd rfl rfl rfl hfinds hc
    have hstage := finds_got fs hl hnd hp hfinds hfound
    generalize hread : readAndParse fs before c = out at hstage
    cases hstage with
    | get p hf hr =>
      rw [stageProcess_refused fs hr.processState hr.method hfile] at hread
      rw [handleRead_eq fs before c hl, handleReadBody_failed fs before hread]
      refine Conn.AllAnswered.refused (Conn.AllAnswered.parsed (c := c.got _) hc hf) hfile ?_
      rw [outlet_parsed hf]
      exact hpage
  | last hp hfound hfile hw hend =>
    rintro c hl hnd rfl rfl rfl hfinds hc
    have hstage := finds_got fs hl hnd hp hfinds hfound
    generalize hread : readAndParse fs before c = out at hstage
    cases hstage with
    | get p hf hr =>
      rw [stageProcess_served fs hr.processState hr.method hfile] at hread
      have he : p.hasError = false := hf.hasError.trans (hl.got _).noError
      rw [handleRead_eq fs before c hl, handleReadBody_served fs before hread he, if_neg]
      · exact (answered_served (c := c.got _) hc hf hfile hw).settles
      · -- there is nothing left, or the end of the stream was read
        rintro ⟨hlen, hopen⟩
        rcases hend with hnil | hzero
        · exact absurd hnil (List.length_pos_iff.mp hlen)
        · exact hopen (hf.connectionState.trans (if_pos hzero))
  | @next finds o buf reads r rest data hp hfound hfile hw hne hz _ ih =>
    rintro c hl hnd rfl rfl rfl hfinds hc
    have hstage := finds_got fs hl hnd hp hfinds hfound
    generalize hread : readAndParse fs before c = out at hstage
    have hlive := hl.got (readFromFd c.reads c.http.readBuffer)
    have hconn : (c.got (readFromFd c.reads c.http.readBuffer)).http.connectionState =
        c.http.connectionState := by
      rw [got_connectionState, hz]
      rfl
    cases hstage with
    | @get p hf hr =>
      rw [stageProcess_served fs hr.processState hr.method hfile] at hread
      have he : p.hasError = false := hf.hasError.trans hlive.noError
      have hp : p.connectionState = c.http.connectionState := hf.connectionState.trans hconn
      rw [handleRead_eq fs before c hl, handleReadBody_served fs before hread he,
        if_pos ⟨List.length_pos_iff.mpr hne, fun h => hnd (hp.symm.trans h)⟩]
      have hend := writeResponse_finished
        ({ c.got (readFromFd c.reads c.http.readBuffer) with http := p } : Conn) data
      have hopen : p.connectionState ≠ .disconnected := fun h => hl.notClosed (hp.symm.trans h)
      refine ih ⟨hend.noError.trans he, ?_, Or.inl rfl⟩ ?_ ?_ hend.readBuffer hend.reads
        (fun s => nextRequest_between before rfl rfl rfl)
        (answered_served (c := c.got _) hc hf hfile hw)
      · rw [hend.connectionState]
        exact hopen
      · rw [hend.connectionState]
        exact fun h => hnd (hp.symm.trans h)
      · refine (writeResponse_outlet he hopen).trans (congrArg Outlet.written ?_)
        exact congrArg (Outlet.push · (okResponse p.request data)) (outlet_parsed hf)

end

/-! ## Events and runs -/

section

variable {demands : List Demand} {sent : Bytes} {d : Dispatch} {h : Http}

/-- `HandleCurrentConn` answers nothing. -/
theorem Conn.Settles.handleCurrentConn {fs : FileSystem} {c : Conn}
    (hc : c.Settles fs demands sent) : (handleCurrentConn c).Settles fs demands sent := by
  have htrace : demandsOf fs (FlashWeb.handleCurrentConn c).trace = demandsOf fs c.trace ∧
      bytesSent (FlashWeb.handleCurrentConn c).trace = bytesSent c.trace := by
    have hout := handleCurrentConn_concludes c
    generalize FlashWeb.handleCurrentConn c = out at hout
    cases hout <;> simp [Conn.listen, handleClose, Effect.demand, Effect.sent]
  obtain ⟨st, ev, hhttp⟩ := handleCurrentConn_frame c
  constructor
  · rw [htrace.1, htrace.2]
    exact hc.inOrder
  · intro he
    rw [hhttp] at he
    refine (hc.queued he).of_same htrace.1 ?_
    rw [Conn.output, htrace.2, hhttp]
    rfl

/-- Writing what is queued touches neither the parser nor what is to be read. -/
theorem beforeRead_withQueue (d : Dispatch) (h : Http) :
    ∃ queue events, (d.beforeRead h).http = h.withQueue queue events ∧
      (d.beforeRead h).reads = d.reads := by
  unfold Dispatch.beforeRead
  split
  · obtain ⟨queue, events, hhttp, hreads⟩ := handleWrite_frame (d.start h)
    exact ⟨queue, events, hhttp, hreads⟩
  · exact ⟨h.writeBuffer, EventMask.zero, rfl, rfl⟩

theorem beforeRead_outlet (hl : h.Live) : (d.beforeRead h).outlet = d.outlet h := by
  unfold Dispatch.beforeRead Dispatch.outlet
  split
  · exact handleWrite_outlet hl.noError hl.notClosed
  · rfl

/-- What is read in an event that keeps the order. -/
theorem Dispatch.ReadsOrderly.handleRead (ho : d.ReadsOrderly h) (hl : h.Live)
    (hc : (d.beforeRead h).AllAnswered d.fs demands sent) :
    (handleRead d.fs d.before (d.beforeRead h)).Settles d.fs demands sent := by
  obtain ⟨queue, events, hhttp, hreads⟩ := beforeRead_withQueue d h
  have hlive := hl.beforeRead d
  have hconn : (d.beforeRead h).http.connectionState = h.connectionState := by
    rw [hhttp]
    rfl
  unfold Dispatch.ReadsOrderly at ho
  rw [← beforeRead_outlet hl] at ho
  split at ho
  · next hd =>
    exact settles_waiting hlive (readAndParse_disconnecting (hconn.trans hd))
      ⟨hlive.noError, hlive.notClosed, hlive.between⟩ hc ho
  · next hnd =>
    refine ho.handleRead hlive (by rw [hconn]; exact hnd) rfl ?_ hreads (fun s => ?_) hc
    · rw [hhttp]
      rfl
    · rw [hhttp]
      exact nextRequest_withQueue d.before { h with readBuffer := s } queue events

/-- **An event that keeps the order answers what it brings.** -/
theorem Dispatch.Orderly.run (ho : d.Orderly h) (hl : h.Live)
    (hc : (d.start h).AllAnswered d.fs demands sent) : (d.run h).Settles d.fs demands sent := by
  by_cases ha : d.active.epollhup ∧ ¬ d.active.epollin
  · rw [d.run_hup h ha]
    exact hc.settles
  · obtain ⟨hwrite, hread⟩ := ho ha
    have hbefore : (d.beforeRead h).AllAnswered d.fs demands sent := by
      unfold Dispatch.beforeRead
      split
      · next hout => exact hc.handleWrite (hwrite hout)
      · exact hc
    rw [d.run_eq h ha]
    refine Conn.Settles.handleCurrentConn ?_
    unfold Dispatch.beforeConn
    split
    · next hin => exact (hread hin).handleRead hl hbefore
    · exact hbefore.settles

end

/-- What was answered in a run, and what is still queued behind it. -/
theorem session_answered {seen : List (Dispatch × List Effect)} {s : Session}
    (h : (sessions.only fun s d _ => d.Orderly s.http).Observed Session.watched seen s) :
    OneResponseEach seen ∧ (s.http.connectionState ≠ .disconnected →
      ∃ responses, List.Forall₂ Answers (demandsSeen seen) responses ∧
        bytesSeen seen ++ s.http.writeBuffer = responses.flatten) := by
  induction h with
  | init hi =>
    obtain rfl := hi
    exact ⟨⟨[], .nil, List.prefix_rfl⟩, fun _ => ⟨[], .nil, rfl⟩⟩
  | @step seen s t d hrun hstep ih =>
    obtain ⟨⟨hopen, -, rfl⟩, ho⟩ := hstep
    have hlive := (session_live hrun.reachable.of_only).resolve_right hopen
    obtain ⟨responses, hans, hall⟩ := ih.2 hopen
    have hstart : (d.start s.http).AllAnswered d.fs (demandsSeen seen) (bytesSeen seen) := by
      refine ⟨responses, ?_, hall⟩
      rw [show (d.start s.http).trace = [] from rfl, demandsOf_nil, List.append_nil]
      exact hans
    have hend := ho.run hlive hstart
    have hdemands : demandsSeen (seen ++ (Session.watched s d).toList) =
        demandsSeen seen ++ demandsOf d.fs (d.run s.http).trace := by
      simp [demandsSeen, Session.watched]
    have hbytes : bytesSeen (seen ++ (Session.watched s d).toList) =
        bytesSeen seen ++ bytesSent (d.run s.http).trace := by
      simp [bytesSeen, Session.watched]
    rw [OneResponseEach, hdemands, hbytes]
    refine ⟨hend.inOrder, fun hc => ?_⟩
    obtain ⟨responses, hans, hall⟩ := hend.queued ((d.run_live hlive).resolve_right hc).noError
    refine ⟨responses, hans, ?_⟩
    rw [List.append_assoc]
    exact hall

/--
**One response for each request, in order.** In every run whose events keep the order the bytes
handed to `write` are the beginning of one complete response for each request: the one with the
contents of its file, or a page if it has none or is no request.
-/
theorem one_response_each {seen : List (Dispatch × List Effect)} {s : Session}
    (h : (sessions.only fun s d _ => d.Orderly s.http).Observed Session.watched seen s) :
    OneResponseEach seen :=
  (session_answered h).1

/-! ## Peers that take everything -/

section

/-- Without a failure both calls of `HandleWrite` go on. -/
theorem Outlet.writesOn_of_notMem {o : Outlet} (h : WriteResult.failed ∉ o.writes)
    (h' : WriteResult.failed ∉ o.write.writes) : o.WritesOn :=
  ⟨fun hb => h hb.failed_mem, fun hb => h' hb.failed_mem⟩

variable {fs : FileSystem}

theorem Outlet.written_prompt (queue : Bytes) : (Outlet.mk queue []).written = ⟨[], []⟩ := by
  simp [Outlet.written, Outlet.write, writeToFd, writeLoop]

theorem Outlet.writesOn_prompt (queue : Bytes) : (Outlet.mk queue []).WritesOn :=
  Outlet.writesOn_of_notMem List.not_mem_nil List.not_mem_nil

/-- A page comes whole where nothing is queued. -/
theorem Outlet.takesPage_prompt (errCode : Nat) (errMsg : Bytes) :
    (Outlet.mk [] []).TakesPage errCode errMsg :=
  Or.inr ⟨rfl, Or.inl rfl⟩

/-- One activation, when those behind it keep the order. -/
theorem orderly_prompt {finds : Bytes → FirstRequest} {buf : Bytes} {reads : List ReadResult}
    (hfile : ∀ path, fs.file path ≠ none)
    (hnext : ∀ r rest, finds (readFromFd reads buf).inBuffer = .get r rest →
      Orderly fs firstRequest ⟨[], []⟩ rest (readFromFd reads buf).reads) :
    Orderly fs finds ⟨[], []⟩ buf reads := by
  by_cases hf : (readFromFd reads buf).readSize < 0
  · exact .failed hf (Outlet.takesPage_prompt _ _)
  by_cases he : (readFromFd reads buf).zero = true ∧ (readFromFd reads buf).readSize = 0
  · exact .ended he.1 he.2 (Outlet.writesOn_prompt _)
  cases hfound : finds (readFromFd reads buf).inBuffer with
  | waiting => exact .waiting ⟨hf, he⟩ hfound (Outlet.writesOn_prompt _)
  | refused => exact .refused ⟨hf, he⟩ hfound (Outlet.takesPage_prompt _ _)
  | get r rest =>
    obtain ⟨data, hdata⟩ := Option.ne_none_iff_exists'.mp (hfile (cStr r.filePath))
    by_cases hend : rest = [] ∨ (readFromFd reads buf).zero = true
    · exact .last ⟨hf, he⟩ hfound hdata (Outlet.writesOn_prompt _) hend
    · rw [not_or, Bool.not_eq_true] at hend
      refine .next ⟨hf, he⟩ hfound hdata (Outlet.writesOn_prompt _) hend.1 hend.2 ?_
      have hwritten : ((Outlet.mk [] []).push (okResponse r data)).written = ⟨[], []⟩ :=
        Outlet.written_prompt _
      rw [hwritten]
      exact hnext r rest hfound

/-- All activations behind the first: the induction is on the bytes that are left. -/
theorem orderly_firstRequest (hfile : ∀ path, fs.file path ≠ none) :
    ∀ (n : Nat) (buf : Bytes) (reads : List ReadResult),
      buf.length + (delivered reads).length < n → Orderly fs firstRequest ⟨[], []⟩ buf reads
  | 0, _, _, hn => absurd hn (Nat.not_lt_zero _)
  | n + 1, buf, reads, hn => by
    refine orderly_prompt hfile fun r rest hfound => ?_
    refine orderly_firstRequest hfile n rest _ ?_
    obtain ⟨got, hbuf, hdel, -⟩ := readLoop_spec reads 0 buf
    have hlt := (firstRequest_get hfound).2
    have hin : (readFromFd reads buf).inBuffer = buf ++ got := hbuf
    have hleft : delivered reads = got ++ delivered (readFromFd reads buf).reads := hdel
    rw [hin, List.length_append] at hlt
    rw [hleft, List.length_append] at hn
    omega

/-- An event in which the peer takes everything and every file can be read, whatever it brings. -/
theorem Dispatch.orderly_of_prompt {d : Dispatch} {h : Http} (hq : h.writeBuffer = [])
    (hw : d.writes = []) (hfile : ∀ path, d.fs.file path ≠ none) : d.Orderly h := by
  have hstart : (⟨h.writeBuffer, d.writes⟩ : Outlet) = ⟨[], []⟩ := by rw [hq, hw]
  have houtlet : d.outlet h = ⟨[], []⟩ := by
    unfold Dispatch.outlet
    rw [hstart, Outlet.written_prompt]
    exact ite_self _
  intro _
  rw [hstart]
  refine ⟨fun _ => Outlet.writesOn_prompt _, fun _ => ?_⟩
  unfold Dispatch.ReadsOrderly
  rw [houtlet]
  split
  · exact Outlet.writesOn_prompt _
  · exact orderly_prompt hfile fun r rest _ => orderly_firstRequest hfile _ _ _ (Nat.lt_succ_self _)

end

/-! ## Runs that keep the order, and one that does not -/

/-- A peer that takes ten bytes of the response. -/
def haltingPeer : Dispatch := ⟨EventMask.inEt, [.data plainRequest], [.wrote 10, .eagain, .eagain],
  .blank, 0⟩

/-- A peer that takes what is queued. -/
def readyPeer : Dispatch := ⟨EventMask.outEt, [], [], .blank, 0⟩

/-- Two requests in one piece, a byte that is lost behind each, and input that is no request. -/
def hurriedPeer : Dispatch :=
  .bringing .blank
    ⟨text "GET / HTTP/1.1rA: b\r\n\r\n_GET / HTTP/1.1rA: b\r\n\r\n_PUT /r", by decide, by decide⟩

/--
A plain request, and a peer that takes the response in two pieces and then sends two more requests
and what is none.
-/
theorem one_response_to_plainRequest :
    OneResponseEach [(haltingPeer, (haltingPeer.run (Session.opened true).http).trace),
      (readyPeer, (readyPeer.run ((Session.opened true).dispatch haltingPeer).http).trace),
      (hurriedPeer, (hurriedPeer.run
        (((Session.opened true).dispatch haltingPeer).dispatch readyPeer).http).trace)] := by
  have hfound : ({ (Session.opened true).http with readBuffer := plainRequest.bytes } :
      Http).nextRequest 0 = .get _ [] := rfl
  have hfirst : haltingPeer.Orderly (Session.opened true).http := by
    intro _
    refine ⟨fun h => absurd h (by decide), fun _ => ?_⟩
    unfold Dispatch.ReadsOrderly
    rw [if_neg (by decide)]
    exact .last ⟨by decide, by decide⟩ hfound rfl
      (Outlet.writesOn_of_notMem (by decide) (by decide)) (Or.inl rfl)
  have hsecond : readyPeer.Orderly ((Session.opened true).dispatch haltingPeer).http := by
    intro _
    exact ⟨fun _ => Outlet.writesOn_of_notMem (by decide) (by decide),
      fun h => absurd h (by decide)⟩
  have hthird : hurriedPeer.Orderly
      (((Session.opened true).dispatch haltingPeer).dispatch readyPeer).http :=
    Dispatch.orderly_of_prompt (by decide) rfl fun _ => Option.some_ne_none _
  have hrun : (sessions.only fun s d _ => d.Orderly s.http).Observed Session.watched
      [(haltingPeer, (haltingPeer.run (Session.opened true).http).trace)]
      ((Session.opened true).dispatch haltingPeer) :=
    .step (.init rfl) ⟨⟨by decide, by decide, rfl⟩, hfirst⟩
  have hrun' := hrun.step ⟨⟨by decide, by decide, rfl⟩, hsecond⟩
  exact one_response_each (hrun'.step ⟨⟨by decide, by decide, rfl⟩, hthird⟩)

/-- A file system without files. -/
def FileSystem.void : FileSystem where
  stat _ := none
  opens _ := false
  mmap _ _ := none

/-- A plain request for a file that is not there gets two status lines. -/
theorem two_pages_for_missing_file :
    sessions.Observed Session.watched [(.bringing .void plainRequest,
        ((Dispatch.bringing .void plainRequest).run (Session.opened true).http).trace)]
      ((Session.opened true).dispatch (.bringing .void plainRequest)) ∧
      ¬ OneResponseEach [(.bringing .void plainRequest,
        ((Dispatch.bringing .void plainRequest).run (Session.opened true).http).trace)] := by
  refine ⟨.step (.init rfl) ⟨by decide, by decide, rfl⟩, ?_⟩
  generalize htrace : ((Dispatch.bringing .void plainRequest).run
    (Session.opened true).http).trace = trace
  have hbytes : bytesSeen [(.bringing .void plainRequest, trace)] =
      errorPage 404 (text "Not Found!") ++ errorPage 400 (text "Bad Request") := by
    rw [← htrace]
    decide +kernel
  have hdemands : ∃ r, demandsSeen [(.bringing .void plainRequest, trace)] =
      [.request r none] := by
    rw [← htrace]
    exact ⟨_, rfl⟩
  rintro ⟨responses, hans, hpre⟩
  obtain ⟨r, hr⟩ := hdemands
  rw [hr] at hans
  rw [hbytes] at hpre
  cases hans with
  | cons ha hnil =>
    cases hnil
    rw [List.flatten_cons, List.flatten_nil, List.append_nil] at hpre
    cases ha with
    | notFound => exact absurd hpre.length_le (by decide +kernel)
    | noFile => exact absurd hpre.length_le (by decide +kernel)

end FlashWeb
