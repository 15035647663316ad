import FlashWeb.Http.State
import Mathlib.Data.Nat.Digits.Defs

/-!
# Responses

`Http::ProcessRequest`, which appends a response to `write_buffer_`, and `Http::HandleError`, which
writes a page straight to the descriptor. A `ProcessRequest` that fails has written such a page
itself, and its caller writes another one.
-/

namespace FlashWeb

/-- `DEFAULT_EXPIRE_TIME`, in milliseconds -/
def DEFAULT_EXPIRE_TIME : Nat := 3 * 1000

/-- `DEFAULT_KEEP_ALIVE_TIME`, in milliseconds -/
def DEFAULT_KEEP_ALIVE_TIME : Nat := 60 * 1000

/-- `std::to_string` of a number that is not negative. -/
def toDecimal (n : Nat) : Bytes :=
  if n = 0 then [48] else (Nat.digits 10 n).reverse.map fun d => 48 + UInt8.ofNat d

/-! ## Resource types -/

/-- `Http::InitResourceMap` -/
def resourceTypeMap : List (Bytes × Bytes) :=
  [(text ".html", text "text/html"),
    (text ".avi", text "video/x-msvideo"),
    (text ".bmp", text "image/bmp"),
    (text ".c", text "text/plain"),
    (text ".doc", text "application/msword"),
    (text ".gif", text "image/gif"),
    (text ".gz", text "application/x-gzip"),
    (text ".htm", text "text/html"),
    (text ".ico", text "image/x-icon"),
    (text ".jpg", text "image/jpeg"),
    (text ".png", text "image/png"),
    (text ".txt", text "text/plain"),
    (text ".mp3", text "audio/mp3"),
    (text "default", text "text/html")]

/-- `resource_type_map_["default"]` -/
def defaultResourceType : Bytes := text "text/html"

/-- `Http::GetResourceType` -/
def getResourceType (suffix : Bytes) : Bytes :=
  (resourceTypeMap.lookup suffix).getD defaultResourceType

/-- The default that an unknown suffix gets is the one in the map. -/
theorem lookup_default : resourceTypeMap.lookup (text "default") = some defaultResourceType := by
  decide

/-! ## The parts of a response -/

/-- `state_line` -/
def stateLine (v : HttpVersion) : Bytes :=
  text "HTTP/" ++ (match v with | .http11 => text "1.1" | .http10 => text "1.0") ++
    text " 200 OK\r\n"

/-- Whether the request asked for a connection that stays open. -/
def wantsKeepAlive (kv : HeaderMap) : Bool :=
  kv (text "Connection") = some (text "Keep-Alive") ∨
    kv (text "Connection") = some (text "keep-alive")

/-- The part of the header that answers `Connection: Keep-Alive`. -/
def keepAliveHeader (kv : HeaderMap) : Bytes :=
  if wantsKeepAlive kv then
    text "Connection: Keep-Alive\r\n" ++ text "Keep-Alive: timeout=" ++
      toDecimal DEFAULT_KEEP_ALIVE_TIME ++ text "\r\n"
  else []

/-- `filetype`: what the map says of the path from its first dot on. -/
def filetype (filePath : Bytes) : Bytes :=
  match find (text ".") filePath 0 with
  | none => getResourceType (text "default")
  | some dotPos => getResourceType (filePath.drop dotPos)

/-- The rest of the header, up to and including the empty line. -/
def contentHeader (filePath : Bytes) (size : Nat) : Bytes :=
  text "Content-Type: " ++ filetype filePath ++ text "\r\n" ++
    text "Content-Length: " ++ toDecimal size ++ text "\r\n" ++
    text "Server: FlashWeb Server\r\n" ++ text "\r\n"

/-! ## HandleError -/

/-- `body_buff` -/
def errorBody (errCode : Nat) (errMsg : Bytes) : Bytes :=
  text "<html><title>哎~出错了</title>" ++ text "<body bgcolor=\"ffffff\">" ++
    toDecimal errCode ++ (text " " ++ errMsg) ++
    text "<hr><em> Flash Web Server</em>\n</body></html>"

/-- `header_buff` -/
def errorHeader (errCode : Nat) (errMsg : Bytes) : Bytes :=
  text "HTTP/1.1 " ++ toDecimal errCode ++ (text " " ++ errMsg) ++ text "\r\n" ++
    text "Content-Type: text/html\r\n" ++ text "Connection: Close\r\n" ++
    text "Content-Length: " ++ toDecimal (errorBody errCode errMsg).length ++ text "\r\n" ++
    text "Server: Flash Web Server\r\n" ++ text "\r\n"

/-- A page as `HandleError` means to write it. -/
def errorPage (errCode : Nat) (errMsg : Bytes) : Bytes :=
  errorHeader errCode errMsg ++ errorBody errCode errMsg

/-- `Http::HandleError`. The header and the body are handed over one after the other. -/
def handleError (errCode : Nat) (errMsg : Bytes) (c : Conn) : Conn :=
  let header := writeToFdRaw c.writes (errorHeader errCode errMsg)
  let body := writeToFdRaw header.writes (errorBody errCode errMsg)
  { c with writes := body.writes }.emit
    (.page errCode errMsg c.http.writeBuffer header.sent body.sent)

/-! ## ProcessRequest -/

/-- `write_buffer_ += s` -/
def Conn.append (c : Conn) (s : Bytes) : Conn :=
  { c with http := { c.http with writeBuffer := c.http.writeBuffer ++ s } }

/-- `write_buffer_.clear()` -/
def Conn.clearWrite (c : Conn) : Conn := { c with http := { c.http with writeBuffer := [] } }

/--
`Http::ProcessRequest`. For `METHOD_POST` the source's function ends without a `return`, so there
is no result; `HandleRead` never calls it then.
-/
def processRequest (fs : FileSystem) (c : Conn) : Option ProcessRequestState × Conn :=
  if c.http.method = some .methodPost then (none, c)
  else
    let filePath := cStr c.http.filePath
    let c := c.append (stateLine c.http.httpVersion)
    let header := keepAliveHeader c.http.headerKv
    let c :=
      if wantsKeepAlive c.http.headerKv then { c with http := { c.http with keepAlive := true } }
      else c
    match fs.stat filePath with
    | none => (some .processError, handleError 404 (text "Not Found!") c)
    | some stSize =>
      let c := c.append (header ++ contentHeader c.http.filePath stSize)
      if fs.opens filePath then
        match fs.mmap filePath stSize with
        | none => (some .processError, handleError 404 (text "Not Found!") c.clearWrite)
        | some data => (some .processSuccess, c.append data.val)
      else (some .processError, handleError 404 (text "Not Found!") c.clearWrite)

/-! ## What `ProcessRequest` does to a GET request -/

/-- The bytes of the file at `path`, when `stat`, `open` and `mmap` all succeed on it. -/
def FileSystem.file (fs : FileSystem) (path : Bytes) : Option Bytes :=
  match fs.stat path with
  | none => none
  | some stSize =>
    if fs.opens path then (fs.mmap path stSize).map Subtype.val else none

/-- The response that carries `data`. -/
def okResponse (r : Request) (data : Bytes) : Bytes :=
  stateLine r.httpVersion ++ (keepAliveHeader r.headerKv ++ contentHeader r.filePath data.length) ++
    data

/-- `keep_alive_` after a request with the header map `kv`. -/
def Http.keptAlive (h : Http) (kv : HeaderMap) : Bool := wantsKeepAlive kv || h.keepAlive

/-- **A file that can be read is appended to `write_buffer_` as one response.** -/
theorem processRequest_served {fs : FileSystem} {c : Conn} {data : Bytes}
    (hm : c.http.method ≠ some .methodPost) (hf : fs.file (cStr c.http.filePath) = some data) :
    processRequest fs c = (some .processSuccess, { c with http := { c.http with
      writeBuffer := c.http.writeBuffer ++ okResponse c.http.request data
      keepAlive := c.http.keptAlive c.http.headerKv } }) := by
  unfold FileSystem.file at hf
  unfold processRequest
  rw [if_neg hm]
  cases hs : fs.stat (cStr c.http.filePath) with
  | none => simp [hs] at hf
  | some stSize =>
    simp only [hs] at hf
    split at hf
    · next ho =>
      obtain ⟨d, hd, rfl⟩ := Option.map_eq_some_iff.mp hf
      cases hk : wantsKeepAlive c.http.headerKv <;>
        simp [hs, ho, hd, hk, Conn.append, okResponse, Http.request, Http.keptAlive, d.property,
          List.append_assoc]
    · simp at hf

/-- What a `ProcessRequest` that fails on `r` leaves of the `write_buffer_` it found. -/
def FileSystem.leftover (fs : FileSystem) (r : Request) (writeBuffer : Bytes) : Bytes :=
  if (fs.stat (cStr r.filePath)).isSome then [] else writeBuffer ++ stateLine r.httpVersion

/-- **Otherwise a page is written at once, and what is left in `write_buffer_` is no response.** -/
theorem processRequest_refused {fs : FileSystem} {c : Conn}
    (hm : c.http.method ≠ some .methodPost) (hf : fs.file (cStr c.http.filePath) = none) :
    processRequest fs c = (some .processError, handleError 404 (text "Not Found!")
      { c with http := { c.http with
        writeBuffer := fs.leftover c.http.request c.http.writeBuffer
        keepAlive := c.http.keptAlive c.http.headerKv } }) := by
  unfold FileSystem.file at hf
  unfold processRequest
  rw [if_neg hm]
  cases hs : fs.stat (cStr c.http.filePath) with
  | none =>
    cases hk : wantsKeepAlive c.http.headerKv <;>
      simp [hk, hs, Conn.append, Http.keptAlive, FileSystem.leftover, Http.request]
  | some stSize =>
    simp only [hs] at hf
    split at hf
    · next ho =>
      have hd : fs.mmap (cStr c.http.filePath) stSize = none := by simpa using hf
      cases hk : wantsKeepAlive c.http.headerKv <;>
        simp [hs, ho, hd, hk, Conn.append, Conn.clearWrite, Http.keptAlive, FileSystem.leftover,
          Http.request]
    · next ho =>
      cases hk : wantsKeepAlive c.http.headerKv <;>
        simp [hs, ho, hk, Conn.append, Conn.clearWrite, Http.keptAlive, FileSystem.leftover,
          Http.request]

end FlashWeb
