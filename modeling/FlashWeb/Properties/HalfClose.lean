import FlashWeb.Properties.Dispatch

/-!
# A peer that closes its side

While a connection is `CONNECTED`, unsent bytes always lead to `EPOLLOUT` being asked for: a write
that leaves bytes sets it in `to_listen_events_`, and `HandleCurrentConn` passes `EPOLLOUT` on
whenever the mask is not `0`. Once the peer has closed its side nothing is passed on any more:
`HandleCurrentConn` either sets the mask without `UpdateEpoller`, or closes, and `HandleRead` may
have dropped the `EPOLLOUT` that says which. So everything depends on whether any bytes are left
unsent when `HandleCurrentConn` finds the connection `DISCONNECTING`.
-/

namespace FlashWeb

open Lib

/-! ## What the property is about -/

/-- No peer reset and no failing call while the event is handled. -/
structure Dispatch.Undisturbed (d : Dispatch) : Prop where
  epollerr : d.active.epollerr = false
  epollhup : d.active.epollhup = false
  reads : ReadResult.failed ∉ d.reads
  writes : WriteResult.failed ∉ d.writes

/-- Unsent bytes are asked to be written, or there were none left when the connection was closed. -/
structure Session.Drains (s : Session) : Prop where
  asks : s.http.connectionState ≠ .disconnected → s.http.hasError = false →
    s.http.writeBuffer ≠ [] → s.interest.epollout = true
  closes : s.http.connectionState = .disconnected → s.http.hasError = false →
    s.http.writeBuffer = []

/-- `HandleCurrentConn` finds the peer's side closed and bytes unsent. -/
def Dispatch.CutsOff (d : Dispatch) (h : Http) : Prop :=
  (d.beforeConn h).http.connectionState = .disconnecting ∧ (d.beforeConn h).http.writeBuffer ≠ []

/-! ## Masks after reading and writing -/

/-- Bytes that are left over ask for `EPOLLOUT`. -/
theorem handleWrite_asks {c : Conn} (he : c.http.hasError = false)
    (hc : c.http.connectionState ≠ .disconnected)
    (hw : (handleWrite c).http.writeBuffer ≠ []) :
    (handleWrite c).http.toListenEvents.epollout = true := by
  unfold handleWrite at hw ⊢
  rw [if_pos ⟨he, hc⟩] at hw ⊢
  dsimp only at hw ⊢
  split
  · rfl
  · next hlen =>
    rw [if_neg hlen] at hw
    exact absurd (List.length_eq_zero_iff.mp (by omega)) hw

theorem writeResponse_asks {c : Conn} (he : c.http.hasError = false)
    (hc : c.http.connectionState ≠ .disconnected)
    (hw : (writeResponse c).http.writeBuffer ≠ []) :
    (writeResponse c).http.toListenEvents.epollout = true := by
  unfold writeResponse at hw ⊢
  split
  · next hlen =>
    rw [if_pos hlen] at hw
    exact handleWrite_asks he hc hw
  · next hlen =>
    rw [if_neg hlen] at hw
    exact absurd (List.length_eq_zero_iff.mp (by omega)) hw

theorem ne_zero_of_epollout {ev : EventMask} (h : ev.epollout = true) : ev ≠ EventMask.zero := by
  rintro rfl
  exact Bool.noConfusion h

/-- The live connection with a request answered. -/
theorem Http.Live.served {c : Conn} (hl : c.http.Live) {p : Http} (hf : ReadFrame c.http p)
    (rs : List ReadResult) (data : Bytes) :
    (served (c.parsed p rs) data).http.hasError = false ∧
      (served (c.parsed p rs) data).http.connectionState ≠ .disconnected :=
  ⟨hf.hasError.trans hl.noError, hf.notClosed hl.notClosed⟩

section

variable {fs : FileSystem} {before : UInt8}

/-- **`HandleRead` never leaves bytes unsent with nothing to listen for.** -/
theorem handleRead_asks {c : Conn} (hl : c.http.Live)
    (he : (handleRead fs before c).http.hasError = false)
    (hw : (handleRead fs before c).http.writeBuffer ≠ []) :
    (handleRead fs before c).http.toListenEvents ≠ EventMask.zero := by
  have hrun := handleRead_run fs before c hl
  generalize handleRead fs before c = out at hrun he hw
  induction hrun with
  | @stop c out hs =>
    cases hs with
    | malformed p rs hf _ => simp [handleClose, reject, badRequest, handleError] at he
    | refused p rs hf _ hr hd => simp [handleClose, badRequest, handleError] at he
    | waiting p rs hf hb =>
      intro hzero
      exact Bool.noConfusion (congrArg EventMask.epollin hzero)
    | last p rs data hf _ hr hd _ =>
      obtain ⟨h1, h2⟩ := hl.served hf rs data
      exact ne_zero_of_epollout (writeResponse_asks h1 h2 hw)
  | next hg _ ih => exact ih (hg.live _ hl) he hw

end

/-! ## Until `HandleCurrentConn` -/

theorem preserved_interest (fs : FileSystem) :
    PreservedByRead fs fun c => ∀ mask, c.trace.foldl Effect.interest mask = mask where
  parsed _ _ _ h _ _ := h
  flush c h _ _ mask := by simp [flush, h, Effect.interest]
  listen _ _ h := h
  served c data h _ _ _ mask := by simp [served, h, Effect.interest]
  reset c h _ _ mask := by simp [reset, h, Effect.interest]
  malformed c h _ mask := by
    simp [Conn.failWith, handleClose, badRequest, handleError, h, Effect.interest]
  refused c h _ _ _ mask := by
    simp [refused, Conn.failWith, handleClose, badRequest, handleError, h, Effect.interest]

/-- Only `HandleCurrentConn` gives a mask to `epoll_ctl`. -/
theorem beforeConn_interest (d : Dispatch) {h : Http} (hl : h.Live) (mask : EventMask) :
    (d.beforeConn h).trace.foldl Effect.interest mask = mask :=
  (preserved_interest d.fs).beforeConn hl (fun _ => rfl) mask

/-- The event makes one of the two callbacks run. -/
theorem Dispatch.Undisturbed.some {d : Dispatch} (hu : d.Undisturbed) {mask : EventMask}
    (hr : mask.Reportable d.active) :
    d.active.epollin ∨ d.active.epollpri ∨ d.active.epollout ∨ d.active.epollrdhup := by
  rcases hr.some with h | h | h | h | h | h
  · exact Or.inl h
  · exact Or.inr (Or.inl h)
  · exact Or.inr (Or.inr (Or.inl h))
  · exact Or.inr (Or.inr (Or.inr h))
  · rw [hu.epollerr] at h
    simp at h
  · rw [hu.epollhup] at h
    simp at h

/-- **Unsent bytes leave something to listen for.** -/
theorem beforeConn_asks {d : Dispatch} {h : Http} (hl : h.Live) {mask : EventMask}
    (hu : d.Undisturbed) (hr : mask.Reportable d.active)
    (he : (d.beforeConn h).http.hasError = false)
    (hw : (d.beforeConn h).http.writeBuffer ≠ []) :
    (d.beforeConn h).http.toListenEvents ≠ EventMask.zero := by
  unfold Dispatch.beforeConn at he hw ⊢
  split
  · next hread =>
    rw [if_pos hread] at he hw
    exact handleRead_asks (hl.beforeRead d) he hw
  · next hread =>
    rw [if_neg hread] at hw
    have hout : d.active.epollout = true := by
      rcases hu.some hr with h | h | h | h
      · exact absurd (Or.inl h) hread
      · exact absurd (Or.inr (Or.inl h)) hread
      · exact h
      · exact absurd (Or.inr (Or.inr h)) hread
    unfold Dispatch.beforeRead at hw ⊢
    rw [if_pos hout] at hw ⊢
    exact ne_zero_of_epollout (handleWrite_asks (hl.start d).noError (hl.start d).notClosed hw)

/-- The peer's side is found closed only by reading. -/
theorem beforeConn_disconnecting {d : Dispatch} {h : Http}
    (hc : h.connectionState = .connected)
    (hd : (d.beforeConn h).http.connectionState = .disconnecting) :
    d.active.epollin ∨ d.active.epollpri ∨ d.active.epollrdhup := by
  by_contra hread
  unfold Dispatch.beforeConn at hd
  rw [if_neg hread] at hd
  have hsame : (d.beforeRead h).http.connectionState = h.connectionState := by
    unfold Dispatch.beforeRead
    split
    · obtain ⟨wb, ev, hw, -⟩ := handleWrite_frame (d.start h)
      rw [hw]
      rfl
    · rfl
  rw [hsame, hc] at hd
  simp at hd

/-! ## Between two events -/

/-- What a session looks like while nothing has been cut off. -/
inductive Session.Polled (s : Session) : Prop where
  | closed : s.http.connectionState = .disconnected →
      (s.http.hasError = false → s.http.writeBuffer = []) → Polled s
  | writing : s.http.connectionState = .connected → s.interest = EventMask.outEt → Polled s
  | reading : s.http.connectionState = .connected → s.interest = EventMask.inEt →
      s.http.writeBuffer = [] → Polled s
  | closing : s.http.connectionState = .disconnecting → s.interest = EventMask.inEt →
      s.http.writeBuffer = [] → Polled s

theorem Session.Polled.drains {s : Session} (h : s.Polled) : s.Drains := by
  cases h with
  | closed hc hw => exact ⟨fun h => absurd hc h, fun _ => hw⟩
  | writing hc hi =>
    exact ⟨fun _ _ _ => by rw [hi]; rfl, fun h => by rw [hc] at h; simp at h⟩
  | reading hc hi hw => exact ⟨fun _ _ h => absurd hw h, fun h => by rw [hc] at h; simp at h⟩
  | closing hc hi hw => exact ⟨fun _ _ h => absurd hw h, fun h => by rw [hc] at h; simp at h⟩

/-- An event finds an open connection and leaves it to `HandleCurrentConn`. -/
theorem dispatch_concludes {s : Session} {d : Dispatch} (hu : d.Undisturbed) :
    Concludes (d.beforeConn s.http) (d.run s.http) := by
  rw [d.run_eq s.http (by simp [hu.epollhup])]
  exact handleCurrentConn_concludes _

/-- When the peer's side is found closed, the mask is still the one for reading. -/
theorem Session.Polled.inEt {s : Session} {d : Dispatch} (h : s.Polled) (hl : s.http.Live)
    (hr : s.interest.Reportable d.active)
    (hd : (d.beforeConn s.http).http.connectionState = .disconnecting) :
    s.interest = EventMask.inEt := by
  cases h with
  | closed hc => exact absurd hc hl.notClosed
  | reading _ hi => exact hi
  | closing _ hi => exact hi
  | writing hc hi =>
    rw [hi] at hr
    rcases beforeConn_disconnecting hc hd with h | h | h
    · exact absurd (hr.epollin h) (by decide)
    · exact absurd (hr.epollpri h) (by decide)
    · exact absurd (hr.epollrdhup h) (by decide)

/-- **An event that cuts nothing off leaves nothing cut off.** -/
theorem Session.Polled.dispatch {s : Session} {d : Dispatch} (h : s.Polled) (hl : s.http.Live)
    (hr : s.interest.Reportable d.active) (hu : d.Undisturbed) (hcut : ¬ d.CutsOff s.http) :
    (s.dispatch d).Polled := by
  have hinterest := beforeConn_interest d hl
  have hasks := beforeConn_asks hl hu hr
  have hlive := d.beforeConn_live hl
  have hout := dispatch_concludes (s := s) hu
  have hinEt := h.inEt hl hr
  unfold Session.dispatch
  generalize d.run s.http = out at hout
  cases hout with
  | busy ms he hc hev _ =>
    refine .writing hc ?_
    simp [Conn.listen, hinterest, Effect.interest]
  | idle he hc hev hk =>
    refine .reading hc ?_ (of_not_not fun hw => hasks he hw hev)
    simp [Conn.listen, hinterest, Effect.interest]
  | finished he hc hev hk => exact .closed rfl fun _ => of_not_not fun hw => hasks he hw hev
  | draining he hd hev =>
    refine .closing hd ?_ (of_not_not fun hw => hcut ⟨hd, hw⟩)
    simp [Conn.listen, hinterest, Effect.interest, hinEt hd]
  | drained he hd hev => exact .closed rfl fun _ => of_not_not fun hw => hcut ⟨hd, hw⟩
  | gone hg =>
    have hfailed := Http.Failed.of_gone hlive hg
    exact .closed hfailed.closed fun he => absurd (hfailed.hasError.symm.trans he) (by simp)

/-- **An event that cuts something off breaks the property.** -/
theorem Session.Polled.cutOff {s : Session} {d : Dispatch} (h : s.Polled) (hl : s.http.Live)
    (hr : s.interest.Reportable d.active) (hu : d.Undisturbed) (hcut : d.CutsOff s.http) :
    ¬ (s.dispatch d).Drains := by
  intro hdrains
  obtain ⟨hd, hw⟩ := hcut
  have hinterest := beforeConn_interest d hl
  have hinEt := h.inEt hl hr hd
  have hout := dispatch_concludes (s := s) hu
  unfold Session.dispatch at hdrains
  generalize d.run s.http = out at hout hdrains
  cases hout with
  | busy ms he hc => rw [hd] at hc; simp at hc
  | idle he hc => rw [hd] at hc; simp at hc
  | finished he hc => rw [hd] at hc; simp at hc
  | draining he _ hev =>
    have hask := hdrains.asks (by show (d.beforeConn s.http).http.connectionState ≠ _; simp [hd])
      he hw
    simp [Conn.listen, hinterest, Effect.interest, hinEt, EventMask.inEt] at hask
  | drained he _ hev => exact hw (hdrains.closes rfl he)
  | gone hg =>
    have hfailed := Http.Failed.of_gone (d.beforeConn_live hl) hg
    exact absurd (hd.symm.trans hfailed.closed) (by simp)

theorem session_polled {s : Session} (h : (sessions.only fun s d _ =>
    d.Undisturbed ∧ ¬ d.CutsOff s.http).Reachable s) : s.Polled := by
  refine h.invariant_only (I := Session.Polled) ?_ ?_
  · rintro s rfl
    exact .reading rfl rfl rfl
  · rintro s d t hr hp ⟨hopen, hrep, rfl⟩ ⟨hu, hcut⟩
    exact hp.dispatch ((session_live hr).resolve_right hopen) hrep hu hcut

/--
**When a half-closing client gets its whole response.** The property holds in every state of a run
in which `HandleCurrentConn` never finds the connection `DISCONNECTING` with bytes unsent; and the
first event in which it does leaves a state without the property.
-/
theorem half_close {s : Session}
    (h : (sessions.only fun s d _ => d.Undisturbed ∧ ¬ d.CutsOff s.http).Reachable s) :
    s.Drains ∧ ∀ d t, sessions.step s d t → d.Undisturbed →
      (t.Drains ↔ ¬ d.CutsOff s.http) := by
  have hp := session_polled h
  refine ⟨hp.drains, ?_⟩
  rintro d t ⟨hopen, hrep, rfl⟩ hu
  have hl := (session_live h.of_only).resolve_right hopen
  by_cases hcut : d.CutsOff s.http
  · exact iff_of_false (hp.cutOff hl hrep hu hcut) (not_not_intro hcut)
  · exact iff_of_true (hp.dispatch hl hrep hu hcut).drains hcut

theorem patientPeer_undisturbed : patientPeer.Undisturbed :=
  ⟨rfl, rfl, by simp [patientPeer], by simp [patientPeer]⟩

/-- The response is sent whole before the connection is closed. -/
theorem patientPeer_drains : ((Session.opened true).dispatch patientPeer).Drains := by
  refine (half_close (.step (.init rfl)
    ⟨⟨by decide, by decide, rfl⟩, patientPeer_undisturbed, fun hcut => hcut.2 ?_⟩)).1
  decide

/-- The rest of the response is never asked to be written. -/
theorem impatientPeer_not_drains :
    impatientPeer.Undisturbed ∧ sessions.step (Session.opened true) impatientPeer
        ((Session.opened true).dispatch impatientPeer) ∧
      ¬ ((Session.opened true).dispatch impatientPeer).Drains := by
  refine ⟨⟨rfl, rfl, by simp [impatientPeer], by simp [impatientPeer]⟩,
    ⟨by decide, by decide, rfl⟩, fun h => ?_⟩
  have hask := h.asks (by decide) rfl (by decide)
  revert hask
  decide

end FlashWeb
