import FlashWeb.Properties.Reuse

/-!
# When a short connection is closed

`HandleCurrentConn` closes an idle connection when `keep_alive_` is not set. But `HandleNewConn`
constructs every connection with `keep_alive_` set, `ProcessRequest` only ever sets it, and `reset`
leaves it alone (`session_keepAlive`), so what a request says about it makes no difference. What
does close an idle connection is the end of the client's stream.
-/

namespace FlashWeb

open Lib

/-- A request that asks for no more than its response. -/
def Request.Short (r : Request) : Prop :=
  r.httpVersion = .http10 ∧ wantsKeepAlive r.headerKv = false

instance (r : Request) : Decidable r.Short := inferInstanceAs (Decidable (_ ∧ _))

/--
`HandleCurrentConn` is called after a short request was answered, with no bytes left in either
direction and no event asked for.
-/
structure Session.Idles (s : Session) (d : Dispatch) : Prop where
  called : ¬ (d.active.epollhup ∧ ¬ d.active.epollin)
  short : ∃ r, (requestsOf (s.log ++ (d.beforeConn s.http).trace)).getLast? = some (r, true) ∧
    r.Short
  readBuffer : (d.beforeConn s.http).http.readBuffer = []
  writeBuffer : (d.beforeConn s.http).http.writeBuffer = []
  noEvent : (d.beforeConn s.http).http.toListenEvents = EventMask.zero

/-- Whatever was asked for, `keep_alive_` is set when `HandleCurrentConn` is called. -/
theorem beforeConn_keepAlive {s : Session} (hs : sessions.Reachable s) (hl : s.http.Live)
    (d : Dispatch) : (d.beforeConn s.http).http.keepAlive = true :=
  (preserved_keepAlive d.fs).beforeConn hl (session_keepAlive hs)

/-- An idle connection that is not `CONNECTED` any more is closed. -/
theorem idle_closed {c : Conn} (hl : c.http.Live ∨ c.http.Failed)
    (hev : c.http.toListenEvents = EventMask.zero) (hc : c.http.connectionState ≠ .connected) :
    (handleCurrentConn c).http.connectionState = .disconnected := by
  have hout := handleCurrentConn_concludes c
  generalize handleCurrentConn c = out at hout
  cases hout with
  | busy _ _ hconn => exact absurd hconn hc
  | idle _ hconn => exact absurd hconn hc
  | finished => rfl
  | draining _ _ hmask =>
    rw [hev] at hmask
    exact Bool.noConfusion hmask
  | drained => rfl
  | gone hg =>
    show c.http.connectionState = .disconnected
    exact (Http.Failed.of_gone hl hg).closed

/-- One that is `CONNECTED` waits for the next request. -/
theorem idle_rearmed {c : Conn} (hl : c.http.Live ∨ c.http.Failed) (hk : c.http.keepAlive = true)
    (hev : c.http.toListenEvents = EventMask.zero) (hc : c.http.connectionState = .connected) :
    (handleCurrentConn c).http.connectionState = .connected ∧
      Effect.updateEpoller EventMask.inEt DEFAULT_KEEP_ALIVE_TIME ∈
        (handleCurrentConn c).trace := by
  have he : c.http.hasError = false := by
    rcases hl with hl | hf
    · exact hl.noError
    · rw [hf.closed] at hc
      simp at hc
  have hout := handleCurrentConn_concludes c
  generalize handleCurrentConn c = out at hout
  cases hout with
  | busy _ _ _ hmask => exact absurd hev hmask
  | idle => exact ⟨hc, by simp [Conn.listen]⟩
  | finished _ _ _ hshort => simp [hk] at hshort
  | draining _ hd => simp [hc] at hd
  | drained _ hd => simp [hc] at hd
  | gone hg => simp [he, hc] at hg

/--
**When a short connection is closed.** Once a short request is answered and nothing is left to do,
`HandleCurrentConn` closes the connection if and only if the end of the client's stream has been
seen; a connection that is still `CONNECTED` gets the timeout of a connection that is kept alive.
-/
theorem short_connection_closed {s : Session} (hs : sessions.Reachable s)
    (hopen : s.http.connectionState ≠ .disconnected) (d : Dispatch) (hidle : s.Idles d) :
    ((d.run s.http).http.connectionState = .disconnected ↔
        (d.beforeConn s.http).http.connectionState ≠ .connected) ∧
      ((d.beforeConn s.http).http.connectionState = .connected →
        Effect.updateEpoller EventMask.inEt DEFAULT_KEEP_ALIVE_TIME ∈ (d.run s.http).trace) := by
  have hl := (session_live hs).resolve_right hopen
  have hlive := d.beforeConn_live hl
  have hrearmed := idle_rearmed hlive (beforeConn_keepAlive hs hl d) hidle.noEvent
  rw [d.run_eq s.http hidle.called]
  constructor
  · constructor
    · intro hclosed hconn
      rw [(hrearmed hconn).1] at hclosed
      simp at hclosed
    · intro hconn
      exact idle_closed hlive hidle.noEvent hconn
  · intro hconn
    exact (hrearmed hconn).2

/-- A request of HTTP/1.0 with one header line. -/
def shortRequest : Chunk := ⟨text "GET / HTTP/1.0rA: b\r\n\r\n", by decide, by decide⟩

/-- A client that sends it and keeps its side open. -/
def shortClient : Dispatch := .bringing .blank shortRequest

/-- A client that sends it and closes its side. -/
def leavingClient : Dispatch :=
  ⟨EventMask.inEt, [.data shortRequest, .eof], [], .blank, 0⟩

theorem shortClient_idles : (Session.opened true).Idles shortClient where
  called := by decide
  short := ⟨_, rfl, by decide⟩
  readBuffer := rfl
  writeBuffer := rfl
  noEvent := rfl

theorem leavingClient_idles : (Session.opened true).Idles leavingClient where
  called := by decide
  short := ⟨_, rfl, by decide⟩
  readBuffer := rfl
  writeBuffer := rfl
  noEvent := rfl

/-- The client that closes its side finds the connection closed. -/
theorem leavingClient_closed :
    (leavingClient.run (Session.opened true).http).http.connectionState = .disconnected :=
  (short_connection_closed (.init rfl) (by decide) leavingClient leavingClient_idles).1.mpr
    (by decide)

/-- The one that does not has to wait for the timeout. -/
theorem shortClient_not_closed : (Session.opened true).Idles shortClient ∧
    (shortClient.run (Session.opened true).http).http.connectionState ≠ .disconnected := by
  refine ⟨shortClient_idles, ?_⟩
  decide

end FlashWeb
