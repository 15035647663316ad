import FlashWeb.Http.Handlers
import FlashWeb.Lib.Runs

/-!
# One connection from `Init` on

A session is a connection that its loop knows, together with the mask that `epoll_ctl` was given
for it last and everything its callbacks did so far. Its steps are the events that `epoll_wait` may
report under that mask; a session that has been removed from the epoller takes none. When its timer
expires the session is over too, without another step.
-/

namespace FlashWeb

open Lib

/-- A connection between two events. -/
structure Session where
  http : Http
  /-- the mask last given to `epoll_ctl` -/
  interest : EventMask
  /-- what the callbacks did, from the first event on -/
  log : List Effect

/-- The mask after an effect: `EpollModify` passes `to_listen_events_` on to `epoll_ctl`. -/
def Effect.interest (mask : EventMask) : Effect → EventMask
  | .updateEpoller events _ => events
  | _ => mask

/-- `Http::Init` on a connection that `Server::HandleNewConn` built. -/
def Session.opened (keepAlive : Bool) : Session where
  http := { Http.construct keepAlive with toListenEvents := EventMask.inEt }
  interest := EventMask.inEt
  log := []

/-- The session after one event. -/
def Session.dispatch (s : Session) (d : Dispatch) : Session where
  http := (d.run s.http).http
  interest := (d.run s.http).trace.foldl Effect.interest s.interest
  log := s.log ++ (d.run s.http).trace

/-- The runs of a connection with `keep_alive_ = true`, as `HandleNewConn` constructs it. -/
def sessions : System Session Dispatch where
  init s := s = Session.opened true
  step s d t := s.http.connectionState ≠ .disconnected ∧ s.interest.Reportable d.active ∧
    t = s.dispatch d

/-! ## A small request -/

/-- A file system in which every path is a file of one zero byte. -/
def FileSystem.blank : FileSystem where
  stat _ := some 1
  opens _ := true
  mmap _ len := some ⟨List.replicate len 0, List.length_replicate⟩

/-- A readable connection, all of whose bytes come in one piece. -/
def Dispatch.bringing (fs : FileSystem) (chunk : Chunk) : Dispatch :=
  ⟨EventMask.inEt, [.data chunk], [], fs, 0⟩

/-- A request with one header line, as the server takes it. -/
def plainRequest : Chunk := ⟨text "GET / HTTP/1.1rA: b\r\n\r\n", by decide, by decide⟩

/-- A peer that sends a request and closes its side, and takes only the start of the response. -/
def impatientPeer : Dispatch :=
  ⟨EventMask.inEt, [.data plainRequest, .eof], [.wrote 10, .eagain, .eagain], .blank, 0⟩

/-- A peer that sends a request and closes its side, and takes all of the response. -/
def patientPeer : Dispatch := ⟨EventMask.inEt, [.data plainRequest, .eof], [], .blank, 0⟩

end FlashWeb
