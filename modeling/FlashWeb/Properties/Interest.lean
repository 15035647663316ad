import FlashWeb.Properties.Activations
import FlashWeb.Properties.HalfClose

/-!
# What a connection listens for

`HandleRead` asks for `EPOLLIN` when it stops in the middle of a request, and `HandleWrite` for
`EPOLLOUT` when it leaves bytes. `HandleCurrentConn` puts the two together in a local variable, and
then registers `EPOLLOUT | EPOLLET` whenever anything was asked for. So a connection with nothing to
send listens for request bytes only if the event asked for nothing at all.
-/

namespace FlashWeb

open Lib Lib.Recursion

/-! ## What the property is about -/

/-- `HandleEvents` does not return at its first line. -/
def Dispatch.Attended (d : Dispatch) : Prop := ¬ (d.active.epollhup ∧ ¬ d.active.epollin)

/-- An open connection that has nothing to send. -/
structure Session.Idle (s : Session) : Prop where
  connected : s.http.connectionState = .connected
  keepAlive : s.http.keepAlive = true
  noError : s.http.hasError = false
  allSent : s.http.writeBuffer = []

/-- A call of `HandleRead` stops before the end of a request, or leaves part of a response. -/
inductive Busy (fs : FileSystem) (before : UInt8) : Conn → Prop where
  | incomplete {c : Conn} : (readAndParse fs before c).http.hasError = false →
      (readAndParse fs before c).http.processState ≠ .stateFinish → Busy fs before c
  | unsent {c : Conn} : (readAndParse fs before c).http.hasError = false →
      (writeResponse (readAndParse fs before c)).http.writeBuffer ≠ [] → Busy fs before c
  | later {c c' : Conn} : Calls (handleReadBody fs before) c c' → Busy fs before c' →
      Busy fs before c

/-- `HandleWrite` leaves bytes behind, or `HandleRead` is busy. -/
def Dispatch.Busy (d : Dispatch) (h : Http) : Prop :=
  (d.active.epollout ∧ (d.beforeRead h).http.writeBuffer ≠ []) ∨
    ((d.active.epollin ∨ d.active.epollpri ∨ d.active.epollrdhup) ∧
      FlashWeb.Busy d.fs d.before (d.beforeRead h))

/-! ## One activation -/

/-- A write asks for `EPOLLOUT` exactly when it leaves bytes. -/
theorem handleWrite_mask {c : Conn} (he : c.http.hasError = false)
    (hc : c.http.connectionState ≠ .disconnected) :
    (handleWrite c).http.toListenEvents ≠ EventMask.zero ↔
      c.http.toListenEvents ≠ EventMask.zero ∨ (handleWrite c).http.writeBuffer ≠ [] := by
  unfold handleWrite
  rw [if_pos ⟨he, hc⟩]
  dsimp only
  split
  · next hlen =>
    refine iff_of_true (ne_zero_of_epollout rfl) (Or.inr ?_)
    exact List.length_pos_iff.mp hlen
  · next hlen =>
    have hsent : (flush (flush c)).http.writeBuffer = [] :=
      List.length_eq_zero_iff.mp (by omega)
    rw [hsent]
    exact ⟨Or.inl, fun h => h.resolve_right fun hne => hne rfl⟩

theorem writeResponse_mask {c : Conn} (he : c.http.hasError = false)
    (hc : c.http.connectionState ≠ .disconnected) :
    (writeResponse c).http.toListenEvents ≠ EventMask.zero ↔
      c.http.toListenEvents ≠ EventMask.zero ∨ (writeResponse c).http.writeBuffer ≠ [] := by
  unfold writeResponse
  split
  · exact handleWrite_mask he hc
  · next hlen =>
    have hsent : c.http.writeBuffer = [] := List.length_eq_zero_iff.mp (by omega)
    exact ⟨Or.inl, fun h => h.resolve_right fun hne => hne hsent⟩

section

variable (fs : FileSystem) (before : UInt8)

/-- Reading and parsing ask for nothing. -/
theorem readAndParse_mask {c : Conn} (hl : c.http.Live) :
    (readAndParse fs before c).http.toListenEvents = c.http.toListenEvents ∧
      (readAndParse fs before c).http.connectionState ≠ .disconnected := by
  obtain ⟨p, rs, hf, hparsed, -⟩ := readAndParse_parsed fs before c hl
  have hconn : p.connectionState ≠ .disconnected := hf.notClosed hl.notClosed
  cases hparsed with
  | wait hout =>
    rw [hout]
    exact ⟨hf.toListenEvents, hconn⟩
  | malformed hout =>
    rw [hout]
    exact ⟨hf.toListenEvents, hconn⟩
  | ready hout hps hm =>
    rw [hout]
    cases hfile : fs.file (cStr p.filePath) with
    | none =>
      rw [stageProcess_refused fs (c := { c with http := p, reads := rs }) hps hm hfile]
      exact ⟨hf.toListenEvents, hconn⟩
    | some data =>
      rw [stageProcess_served fs (c := { c with http := p, reads := rs }) hps hm hfile]
      exact ⟨hf.toListenEvents, hconn⟩

/-- **What an activation does once it has parsed.** -/
inductive Acts (fs : FileSystem) (before : UInt8) (c : Conn) : Prop where
  | failed : (readAndParse fs before c).http.hasError = true →
      Halts (handleReadBody fs before) c (handleClose (readAndParse fs before c)) → Acts fs before c
  | waits : (readAndParse fs before c).http.hasError = false →
      (readAndParse fs before c).http.processState ≠ .stateFinish →
      Halts (handleReadBody fs before) c ((writeResponse (readAndParse fs before c)).listen
        { c.http.toListenEvents with epollin := true }) → Acts fs before c
  | last : (readAndParse fs before c).http.hasError = false →
      (readAndParse fs before c).http.processState = .stateFinish →
      Halts (handleReadBody fs before) c (reset (writeResponse (readAndParse fs before c))) →
      Acts fs before c
  | next : (readAndParse fs before c).http.hasError = false →
      (readAndParse fs before c).http.processState = .stateFinish →
      Calls (handleReadBody fs before) c (reset (writeResponse (readAndParse fs before c))) →
      Acts fs before c

theorem handleReadBody_acts {c : Conn} (hl : c.http.Live) : Acts fs before c := by
  obtain ⟨-, hconn⟩ := readAndParse_mask fs before hl
  obtain ⟨wb, ev, hw, -⟩ := writeResponse_frame (readAndParse fs before c)
  cases he : (readAndParse fs before c).http.hasError with
  | true =>
    refine .failed he fun again => ?_
    simp only [handleReadBody]
    rw [if_neg (by simp [he])]
  | false =>
    have herr : (writeResponse (readAndParse fs before c)).http.hasError = false := by
      rw [hw]
      exact he
    have hopen : (writeResponse (readAndParse fs before c)).http.connectionState ≠
        .disconnected := by
      rw [hw]
      exact hconn
    have hstate : (writeResponse (readAndParse fs before c)).http.processState =
        (readAndParse fs before c).http.processState := by rw [hw]
    by_cases hfin : (readAndParse fs before c).http.processState = .stateFinish
    · by_cases hmore :
          (reset (writeResponse (readAndParse fs before c))).http.readBuffer.length > 0 ∧
          (reset (writeResponse (readAndParse fs before c))).http.connectionState ≠ .disconnecting
      · refine .next he hfin fun again => ?_
        simp only [handleReadBody]
        rw [if_pos he, if_pos ⟨herr, hstate.trans hfin⟩, if_pos hmore]
      · refine .last he hfin fun again => ?_
        simp only [handleReadBody]
        rw [if_pos he, if_pos ⟨herr, hstate.trans hfin⟩, if_neg hmore]
    · refine .waits he hfin fun again => ?_
      simp only [handleReadBody]
      rw [if_pos he, if_neg fun h => hfin (hstate.symm.trans h.2), if_pos ⟨herr, hopen⟩]

/-! ## A whole call -/

variable {fs before}

/-- An activation that returns behind a request is busy only with its response. -/
theorem Busy.of_halts {c out : Conn} (h : Busy fs before c)
    (hfin : (readAndParse fs before c).http.processState = .stateFinish)
    (hout : Halts (handleReadBody fs before) c out) :
    (writeResponse (readAndParse fs before c)).http.writeBuffer ≠ [] := by
  cases h with
  | incomplete _ hstop => exact absurd hfin hstop
  | unsent _ hw => exact hw
  | later hcall _ => exact (hout.not_calls hcall).elim

/-- An activation that goes on is busy with its response, or the next one is. -/
theorem Busy.of_calls {c c' : Conn} (h : Busy fs before c)
    (hfin : (readAndParse fs before c).http.processState = .stateFinish)
    (hcall : Calls (handleReadBody fs before) c c') :
    (writeResponse (readAndParse fs before c)).http.writeBuffer ≠ [] ∨ Busy fs before c' := by
  cases h with
  | incomplete _ hstop => exact absurd hfin hstop
  | unsent _ hw => exact Or.inl hw
  | later hcall' hb =>
    rw [hcall.unique hcall']
    exact Or.inr hb

/-- Behind a request the connection takes events, and is asked what it was asked before. -/
theorem Http.Live.finished {c : Conn} (hl : c.http.Live)
    (he : (readAndParse fs before c).http.hasError = false) :
    (reset (writeResponse (readAndParse fs before c))).http.Live ∧
      ((reset (writeResponse (readAndParse fs before c))).http.toListenEvents ≠ EventMask.zero ↔
        c.http.toListenEvents ≠ EventMask.zero ∨
          (writeResponse (readAndParse fs before c)).http.writeBuffer ≠ []) := by
  obtain ⟨hmask, hconn⟩ := readAndParse_mask fs before hl
  refine ⟨?_, hmask ▸ writeResponse_mask he hconn⟩
  obtain ⟨wb, ev, hw, -⟩ := writeResponse_frame (readAndParse fs before c)
  simp only [reset, Conn.emit_http, hw]
  exact ⟨he, hconn, Or.inl rfl⟩

/-- **A call of `HandleRead` asks for something exactly when it is busy.** -/
theorem returns_mask {c out : Conn} {n : Nat} (h : Returns (handleReadBody fs before) c n out)
    (hl : c.http.Live) (he : out.http.hasError = false) :
    out.http.toListenEvents ≠ EventMask.zero ↔
      c.http.toListenEvents ≠ EventMask.zero ∨ Busy fs before c := by
  induction h with
  | @halt c out hout =>
    cases handleReadBody_acts fs before hl with
    | failed herr hhalt =>
      obtain rfl := hout.unique hhalt
      exact absurd (he.symm.trans herr) (by simp)
    | waits herr hstop hhalt =>
      obtain rfl := hout.unique hhalt
      refine iff_of_true ?_ (Or.inr (.incomplete herr hstop))
      intro hzero
      exact Bool.noConfusion (congrArg EventMask.epollin hzero)
    | last herr hfin hhalt =>
      obtain rfl := hout.unique hhalt
      rw [(hl.finished herr).2]
      exact or_congr_right ⟨fun hw => .unsent herr hw, fun hb => hb.of_halts hfin hout⟩
    | next _ _ hcall => exact (hout.not_calls hcall).elim
  | @call c c' out n hcall _ ih =>
    cases handleReadBody_acts fs before hl with
    | failed _ hhalt => exact (hhalt.not_calls hcall).elim
    | waits _ _ hhalt => exact (hhalt.not_calls hcall).elim
    | last _ _ hhalt => exact (hhalt.not_calls hcall).elim
    | next herr hfin hcall' =>
      obtain rfl := hcall.unique hcall'
      obtain ⟨hl', hmask⟩ := hl.finished herr
      rw [ih hl' he, hmask, or_assoc]
      refine or_congr_right ⟨?_, fun hb => hb.of_calls hfin hcall⟩
      rintro (hw | hb)
      · exact .unsent herr hw
      · exact .later hcall hb

end

/-! ## One event -/

/-- **The callbacks of an event ask for something exactly when it is busy.** -/
theorem beforeConn_mask {d : Dispatch} {h : Http} (hl : h.Live) (hr : h.Resumes)
    (he : (d.beforeConn h).http.hasError = false) :
    (d.beforeConn h).http.toListenEvents ≠ EventMask.zero ↔ d.Busy h := by
  have hstart : (d.beforeRead h).http.toListenEvents ≠ EventMask.zero ↔
      d.active.epollout ∧ (d.beforeRead h).http.writeBuffer ≠ [] := by
    unfold Dispatch.beforeRead
    split
    · next hout =>
      rw [handleWrite_mask (hl.start d).noError (hl.start d).notClosed]
      simp [Dispatch.start, hout]
    · next hout => simp [Dispatch.start, hout]
  unfold Dispatch.Busy
  rw [← hstart]
  unfold Dispatch.beforeConn at he ⊢
  split
  · next hread =>
    rw [if_pos hread] at he
    obtain ⟨n, hret, -, -⟩ := handleRead_returns d.fs d.before
      (hl.beforeRead d) (hr.beforeRead d)
    rw [returns_mask hret (hl.beforeRead d) he]
    exact or_congr_right ⟨fun hb => ⟨hread, hb⟩, fun hb => hb.2⟩
  · next hread => exact ⟨Or.inl, fun h => h.resolve_right fun hb => hread hb.1⟩

/-- **A connection with nothing to send listens for bytes, unless its event was busy.** -/
theorem dispatch_listens {s : Session} {d : Dispatch} (hl : s.http.Live) (hr : s.http.Resumes)
    (ha : d.Attended) (hidle : (s.dispatch d).Idle) :
    (s.dispatch d).interest.epollin = true ↔ ¬ d.Busy s.http := by
  have hinterest := beforeConn_interest d hl
  have hmask := fun he => beforeConn_mask (d := d) hl hr he
  have hout := handleCurrentConn_concludes (d.beforeConn s.http)
  rw [← d.run_eq s.http ha] at hout
  obtain ⟨hconn, -, -, -⟩ := hidle
  unfold Session.dispatch at hconn ⊢
  generalize d.run s.http = out at hout hconn
  cases hout with
  | busy ms he hc hev _ =>
    refine iff_of_false ?_ (not_not_intro ((hmask he).mp hev))
    simp [Conn.listen, hinterest, Effect.interest, EventMask.outEt]
  | idle he hc hev hk =>
    refine iff_of_true ?_ (fun hb => (hmask he).mpr hb hev)
    simp [Conn.listen, hinterest, Effect.interest, EventMask.inEt]
  | finished => simp [handleClose] at hconn
  | draining he hd => simp [Conn.listen, hd] at hconn
  | drained => simp [handleClose] at hconn
  | gone hg =>
    have hfailed := Http.Failed.of_gone (d.beforeConn_live hl) hg
    exact absurd (hconn.symm.trans hfailed.closed) (by simp)

/-! ## Every run -/

/-- An event that is not attended changes neither what is to be sent nor the mask. -/
theorem Session.Idle.of_hup {s : Session} {d : Dispatch} (ha : ¬ d.Attended)
    (hidle : (s.dispatch d).Idle) : s.Idle ∧ (s.dispatch d).interest = s.interest := by
  have hrun := d.run_hup s.http (of_not_not ha)
  obtain ⟨h1, h2, h3, h4⟩ := hidle
  unfold Session.dispatch at h1 h2 h3 h4 ⊢
  rw [hrun] at h1 h2 h3 h4 ⊢
  exact ⟨⟨h1, h2, h3, h4⟩, rfl⟩

/--
**When a connection with nothing to send listens for bytes.** It does in every state of a run whose
events are not busy. From any state whatever, the event that comes next leaves it listening if and
only if that event is not busy.
-/
theorem listens_unless_busy {s : Session} (h : sessions.Reachable s) :
    ((sessions.only fun s d _ => d.Attended → ¬ d.Busy s.http).Reachable s → s.Idle →
      s.interest.epollin = true) ∧
    ∀ d t, sessions.step s d t → d.Attended → t.Idle →
      (t.interest.epollin = true ↔ ¬ d.Busy s.http) := by
  refine ⟨fun hrun => ?_, ?_⟩
  · refine hrun.invariant_only (I := fun s => s.Idle → s.interest.epollin = true) ?_ ?_
    · rintro s rfl -
      rfl
    · rintro s d t hs hin ⟨hopen, -, rfl⟩ hbusy hidle
      by_cases ha : d.Attended
      · exact (dispatch_listens ((session_live hs).resolve_right hopen)
          ((session_resumes hs).resolve_right hopen) ha hidle).mpr (hbusy ha)
      · obtain ⟨hidle', hsame⟩ := hidle.of_hup ha
        rw [hsame]
        exact hin hidle'
  · rintro d t ⟨hopen, -, rfl⟩ ha hidle
    exact dispatch_listens ((session_live h).resolve_right hopen)
      ((session_resumes h).resolve_right hopen) ha hidle

/-- A peer that has sent the start of a request line. -/
def slowPeer : Dispatch := .bringing .blank ⟨text "GET /", by decide, by decide⟩

/-- A peer that has sent a request. -/
def promptPeer : Dispatch := .bringing .blank plainRequest

/-- Behind a request that was answered the connection listens for the next one. -/
theorem listens_promptPeer : ((Session.opened true).dispatch promptPeer).Idle ∧
    ((Session.opened true).dispatch promptPeer).interest.epollin = true ∧
    ¬ promptPeer.Busy (Session.opened true).http := by
  have hidle : ((Session.opened true).dispatch promptPeer).Idle := ⟨rfl, rfl, rfl, rfl⟩
  have hlistens : ((Session.opened true).dispatch promptPeer).interest.epollin = true := rfl
  have hiff := (listens_unless_busy (.init rfl)).2 promptPeer _ ⟨by decide, by decide, rfl⟩
    (by unfold Dispatch.Attended; decide) hidle
  exact ⟨hidle, hlistens, hiff.mp hlistens⟩

/-- In the middle of a request line it listens for `EPOLLOUT` alone. -/
theorem not_listens_slowPeer :
    sessions.step (Session.opened true) slowPeer ((Session.opened true).dispatch slowPeer) ∧
      slowPeer.Attended ∧ ((Session.opened true).dispatch slowPeer).Idle ∧
      ((Session.opened true).dispatch slowPeer).interest = EventMask.outEt :=
  ⟨⟨by decide, by decide, rfl⟩, by unfold Dispatch.Attended; decide,
    ⟨rfl, rfl, rfl, rfl⟩, rfl⟩

end FlashWeb
