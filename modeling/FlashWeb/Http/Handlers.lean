import FlashWeb.Http.ParseUri
import FlashWeb.Http.ParseHeaders
import FlashWeb.Http.ProcessRequest

/-!
# The callbacks of a connection

`HandleRead`, `HandleWrite` and `HandleCurrentConn`, which `Channel::HandleEvents` calls, and what
they call in turn. `HandleRead` calls itself while its buffer holds more requests; the model counts
the activations down from the number of bytes buffered or still to be read, which is enough for all
of them (`handleRead_eq`).
-/

namespace FlashWeb

section

variable (fs : FileSystem) (before : UInt8)

/-! ## Small steps -/

/-- `Http::reset` -/
def reset (c : Conn) : Conn :=
  { c with http := { c.http with
      filePath := []
      processState := .stateParseUri
      headerLineState := .hStart
      headerKv := HeaderMap.empty } }.emit .seperateTimer

/-- `Http::HandleClose` -/
def handleClose (c : Conn) : Conn :=
  { c with http := { c.http with connectionState := .disconnected } }.emit .removeFromEpoller

/-- `channel_->SetToListenEvents(events)` -/
def Conn.listen (c : Conn) (events : EventMask) : Conn :=
  { c with http := { c.http with toListenEvents := events } }

/-- `process_state_ = s` -/
def Conn.enter (c : Conn) (s : ProcessState) : Conn :=
  { c with http := { c.http with processState := s } }

/-- `has_error_ = true; HandleError(fd_, 400, "Bad Request")` -/
def badRequest (c : Conn) : Conn :=
  handleError 400 (text "Bad Request") { c with http := { c.http with hasError := true } }

/-- The same for input that is not a request. -/
def reject (c : Conn) : Conn := badRequest (c.emit .malformed)

/-! ## HandleWrite -/

/-- `Utils::WriteToFd(fd_, write_buffer_)` -/
def flush (c : Conn) : Conn :=
  let o := writeToFd c.writes c.http.writeBuffer
  { c with http := { c.http with writeBuffer := o.outBuffer }, writes := o.writes }.emit
    (.flush o.sent (o.ret < 0))

/-- `Http::HandleWrite` -/
def handleWrite (c : Conn) : Conn :=
  if c.http.hasError = false ∧ c.http.connectionState ≠ .disconnected then
    let events := c.http.toListenEvents
    let c := flush (flush c)
    if c.http.writeBuffer.length > 0 then c.listen { events with epollout := true } else c
  else c

/-! ## HandleRead -/

/-- `STATE_PROCESS` in `HandleRead`. -/
def stageProcess (c : Conn) : Conn :=
  if c.http.processState = .stateProcess then
    let r := c.http.request
    match processRequest fs c with
    | (some .processError, c) => badRequest (c.emit (.process r false))
    | (some .processSuccess, c) => (c.emit (.process r true)).enter .stateFinish
    | (none, c) => c
  else c

/-- `STATE_PARSE_HEADER` in `HandleRead`, and what follows it. -/
def stageHeader (c : Conn) : Conn :=
  if c.http.processState = .stateParseHeader then
    match parseHeaders before c.http with
    | (.parseHeaderAgain, h) => { c with http := h }
    | (.parseHeaderError, h) => reject { c with http := h }
    | (.parseHeaderSuccess, h) =>
      let c : Conn := { c with http := h }
      match c.http.method with
      | some .methodPost => stageProcess fs (c.enter .stateParseBody)
      | some .methodGet => stageProcess fs (c.enter .stateProcess)
      | none => stageProcess fs c
  else stageProcess fs c

/-- `STATE_PARSE_URI` in `HandleRead`, and what follows it. -/
def stageUri (c : Conn) : Conn :=
  if c.http.processState = .stateParseUri then
    match parseUri c.http with
    | (.parseUriAgain, h) => { c with http := h }
    | (.parseUriError, h) => reject { c with http := h }
    | (.parseUriSuccess, h) =>
      stageHeader fs before (({ c with http := h } : Conn).enter .stateParseHeader)
  else stageHeader fs before c

/-- The `do { … } while (false)` of `HandleRead`. -/
def readAndParse (c : Conn) : Conn :=
  let r := readFromFd c.reads c.http.readBuffer
  let c : Conn := { c with http := { c.http with readBuffer := r.inBuffer }, reads := r.reads }
  if c.http.connectionState = .disconnecting then
    { c with http := { c.http with readBuffer := [] } }
  else if r.readSize < 0 then reject c
  else if r.zero then
    let c : Conn := { c with http := { c.http with connectionState := .disconnecting } }
    if r.readSize = 0 then c else stageUri fs before c
  else stageUri fs before c

/-- `HandleRead` between the reading and the decision whether to go on with the next request. -/
def writeResponse (c : Conn) : Conn :=
  if c.http.writeBuffer.length > 0 then handleWrite c else c

/-- The body of `HandleRead`, with `again` for the call of itself. -/
def handleReadBody (again : Conn → Conn) (c : Conn) : Conn :=
  let events := c.http.toListenEvents
  let c := readAndParse fs before c
  if c.http.hasError = false then
    let c := writeResponse c
    if c.http.hasError = false ∧ c.http.processState = .stateFinish then
      let c := reset c
      if c.http.readBuffer.length > 0 ∧ c.http.connectionState ≠ .disconnecting then again c
      else c
    else if c.http.hasError = false ∧ c.http.connectionState ≠ .disconnected then
      c.listen { events with epollin := true }
    else c
  else handleClose c

/-- `HandleRead` with at most `n` nested activations of itself. -/
def handleReadFuel : Nat → Conn → Conn
  | 0, c => c
  | n + 1, c => handleReadBody fs before (handleReadFuel n) c

/-- The bytes that are buffered or still to be read. -/
def Conn.pending (c : Conn) : Nat := c.http.readBuffer.length + (delivered c.reads).length

/-- `Http::HandleRead` -/
def handleRead (c : Conn) : Conn := handleReadFuel fs before (c.pending + 2) c

/-! ## HandleCurrentConn -/

/-- `Http::HandleCurrentConn` -/
def handleCurrentConn (c : Conn) : Conn :=
  let c := c.emit .seperateTimer
  let events := c.http.toListenEvents
  if c.http.hasError = false ∧ c.http.connectionState = .connected then
    if events ≠ EventMask.zero then
      -- the source normalises its local `events` here and then does not use it
      let c := c.listen EventMask.outEt
      if c.http.keepAlive then
        c.emit (.updateEpoller c.http.toListenEvents DEFAULT_KEEP_ALIVE_TIME)
      else c.emit (.updateEpoller c.http.toListenEvents DEFAULT_EXPIRE_TIME)
    else if c.http.keepAlive then
      let c := c.listen { events with epollin := true, epollet := true }
      c.emit (.updateEpoller c.http.toListenEvents DEFAULT_KEEP_ALIVE_TIME)
    else handleClose c
  else if c.http.hasError = false ∧ c.http.connectionState = .disconnecting then
    if events.epollout then c.listen EventMask.outEt else handleClose c
  else c

/-! ## Channel::HandleEvents -/

/-- `Channel::HandleEvents` for the channel of an `Http`, which has no error callback. -/
def handleEvents (active : EventMask) (c : Conn) : Conn :=
  if active.epollhup ∧ ¬ active.epollin then c
  else
    let c := if active.epollout then handleWrite c else c
    let c :=
      if active.epollin ∨ active.epollpri ∨ active.epollrdhup then handleRead fs before c else c
    handleCurrentConn c

end

/-! ## One dispatch -/

/-- One event on a connection, and what the kernel answers while it is handled. -/
structure Dispatch where
  active : EventMask
  reads : List ReadResult
  writes : List WriteResult
  fs : FileSystem
  /-- the byte in front of `read_buffer_` -/
  before : UInt8

/-- `EpollWait` sets `to_listen_events_` to `0` and `HandleEvents` runs. -/
def Dispatch.run (d : Dispatch) (h : Http) : Conn :=
  handleEvents d.fs d.before d.active
    { http := { h with toListenEvents := EventMask.zero }, reads := d.reads, writes := d.writes,
      trace := [] }

end FlashWeb
