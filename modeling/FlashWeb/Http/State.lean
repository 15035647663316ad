import FlashWeb.Utils
import Mathlib.Logic.Function.Basic

/-!
# The state of a connection

The members of `Http`, and of its `Channel`, that the callbacks read and write. `fd_`, `channel_`
and `eventloop_` never change after construction and `timer_` is the business of the event loop, so
they are kept with the loop (`FlashWeb/EventLoop.lean`).

A callback acts on its loop only through `seperateTimer`, `UpdateEpoller` and `RemoveFromEpoller`,
and reads nothing back from it. It leaves these calls in `Conn.trace`, in order, together with
what it hands to `write` and what it hands to `ProcessRequest`; the loop carries them out.
-/

namespace FlashWeb

/-! ## Enumerations -/

inductive HttpVersion where
  | http10
  | http11
  deriving DecidableEq, Repr

inductive ProcessState where
  | stateParseUri
  | stateParseHeader
  | stateParseBody
  | stateProcess
  | stateFinish
  deriving DecidableEq, Repr

inductive ParseUriState where
  | parseUriAgain
  | parseUriError
  | parseUriSuccess
  deriving DecidableEq, Repr

inductive ParseHeaderState where
  | parseHeaderAgain
  | parseHeaderSuccess
  | parseHeaderError
  deriving DecidableEq, Repr

inductive HeaderLineState where
  | hStart
  | hKey
  | hColon
  | hSpacesAfterColon
  | hValue
  | hCr
  | hLf
  | hEndCr
  | hEndLf
  deriving DecidableEq, Repr

inductive ProcessRequestState where
  | processSuccess
  | processError
  deriving DecidableEq, Repr

inductive ConnectionState where
  | connected
  | disconnecting
  | disconnected
  deriving DecidableEq, Repr

inductive HttpMethod where
  | methodGet
  | methodPost
  deriving DecidableEq, Repr

/-! ## Http -/

/-- `std::unordered_map<std::string, std::string>`: the value under each key, if there is one. -/
abbrev HeaderMap := Bytes → Option Bytes

/-- The map with no entry. -/
def HeaderMap.empty : HeaderMap := fun _ => none

/-- `map[key] = value` -/
def HeaderMap.set (kv : HeaderMap) (key value : Bytes) : HeaderMap :=
  Function.update kv key (some value)

@[simp] theorem HeaderMap.set_self (kv : HeaderMap) (key value : Bytes) :
    kv.set key value key = some value := Function.update_self ..

theorem HeaderMap.set_ne (kv : HeaderMap) {key k : Bytes} (value : Bytes) (h : k ≠ key) :
    kv.set key value k = kv k := Function.update_of_ne h ..

/-- An assignment removes no key. -/
theorem HeaderMap.isSome_set {kv : HeaderMap} {k : Bytes} (key value : Bytes)
    (h : (kv k).isSome) : (kv.set key value k).isSome := by
  by_cases hk : k = key
  · simp [hk]
  · rwa [kv.set_ne value hk]

/-- The members of `Http` and `Channel` that the callbacks use. -/
structure Http where
  readBuffer : Bytes
  writeBuffer : Bytes
  /-- `none` until `ParseURI` assigns it: the constructor leaves `method_` uninitialised -/
  method : Option HttpMethod
  filePath : Bytes
  httpVersion : HttpVersion
  headerKv : HeaderMap
  headerLineState : HeaderLineState
  keepAlive : Bool
  processState : ProcessState
  connectionState : ConnectionState
  hasError : Bool
  /-- `Channel::to_listen_events_` -/
  toListenEvents : EventMask

/-- `Http::Http` -/
def Http.construct (keepAlive : Bool) : Http where
  readBuffer := []
  writeBuffer := []
  method := none
  filePath := []
  httpVersion := .http11
  headerKv := HeaderMap.empty
  headerLineState := .hStart
  keepAlive := keepAlive
  processState := .stateParseUri
  connectionState := .connected
  hasError := false
  toListenEvents := EventMask.zero

/-! ## What a callback does to the outside -/

/-- A request as `ProcessRequest` finds it. -/
structure Request where
  method : Option HttpMethod
  filePath : Bytes
  httpVersion : HttpVersion
  headerKv : HeaderMap

/-- The request in the parser's fields. -/
def Http.request (h : Http) : Request := ⟨h.method, h.filePath, h.httpVersion, h.headerKv⟩

/-- One thing a callback does to its surroundings. -/
inductive Effect where
  /-- `ProcessRequest` ran on `r`; `ok` is whether it returned `ProcessSuccess` -/
  | process (r : Request) (ok : Bool)
  /-- reading failed, or what was read is no request -/
  | malformed
  /-- `WriteToFd(fd_, write_buffer_)`: the bytes taken, and whether it returned `-1` -/
  | flush (sent : Bytes) (failed : Bool)
  /-- `HandleError` with `queued` in `write_buffer_`: the bytes taken of its header and body -/
  | page (errCode : Nat) (errMsg : Bytes) (queued header body : Bytes)
  /-- `seperateTimer()` -/
  | seperateTimer
  /-- `UpdateEpoller(channel_, timeout)` with `events` in `to_listen_events_` -/
  | updateEpoller (events : EventMask) (timeout : Nat)
  /-- `RemoveFromEpoller(channel_)` -/
  | removeFromEpoller

/-- The bytes the kernel took for this effect. -/
def Effect.sent : Effect → Bytes
  | .flush sent _ => sent
  | .page _ _ _ header body => header ++ body
  | _ => []

/-- The request that this effect ran `ProcessRequest` on, and whether it succeeded. -/
def Effect.processed : Effect → Option (Request × Bool)
  | .process r ok => some (r, ok)
  | _ => none

/-- The requests processed, in order. -/
def requestsOf (trace : List Effect) : List (Request × Bool) := trace.filterMap Effect.processed

/-- The bytes on the wire, in order. -/
def bytesSent (trace : List Effect) : Bytes := trace.flatMap Effect.sent

@[simp] theorem requestsOf_append (t u : List Effect) :
    requestsOf (t ++ u) = requestsOf t ++ requestsOf u := List.filterMap_append

@[simp] theorem requestsOf_cons (e : Effect) (t : List Effect) :
    requestsOf (e :: t) = e.processed.toList ++ requestsOf t := by
  cases h : e.processed <;> simp [requestsOf, h]

@[simp] theorem requestsOf_nil : requestsOf [] = [] := rfl

@[simp] theorem bytesSent_cons (e : Effect) (t : List Effect) :
    bytesSent (e :: t) = e.sent ++ bytesSent t := rfl

@[simp] theorem bytesSent_nil : bytesSent [] = [] := rfl

@[simp] theorem bytesSent_append (t u : List Effect) :
    bytesSent (t ++ u) = bytesSent t ++ bytesSent u := List.flatMap_append

/-- A connection while one of its callbacks runs. -/
structure Conn where
  http : Http
  /-- what `read` will answer -/
  reads : List ReadResult
  /-- what `write` will answer -/
  writes : List WriteResult
  trace : List Effect

/-- The connection with `e` added to what it did. -/
def Conn.emit (c : Conn) (e : Effect) : Conn := { c with trace := c.trace ++ [e] }

@[simp] theorem Conn.emit_http (c : Conn) (e : Effect) : (c.emit e).http = c.http := rfl
@[simp] theorem Conn.emit_reads (c : Conn) (e : Effect) : (c.emit e).reads = c.reads := rfl
@[simp] theorem Conn.emit_writes (c : Conn) (e : Effect) : (c.emit e).writes = c.writes := rfl
@[simp] theorem Conn.emit_trace (c : Conn) (e : Effect) :
    (c.emit e).trace = c.trace ++ [e] := rfl

end FlashWeb
