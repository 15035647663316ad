import FlashWeb.Properties.Reuse
import FlashWeb.Properties.Serves

/-!
# Requests that arrive together

Two requests that are delivered by one event are answered as if each had an event of its own,
unless the first one ends exactly with its empty line. Then the loop of `ParseHeaders` runs once
more, in `H_END_LF`, over the first byte of the second request, and that byte is gone.
`pipelining` says when the loss shows: unless the parser finds the same first request with and
without that byte.
-/

namespace FlashWeb

open Lib

/-! ## One event that delivers bytes -/

/-- The event delivers `bytes` and the peer takes everything that is written. -/
structure Delivers (fs : FileSystem) (d : Dispatch) (bytes : Bytes) : Prop where
  readable : d.active.epollin = true
  onlyData : OnlyData d.reads
  delivered : delivered d.reads = bytes
  writes : d.writes = []
  fs : d.fs = fs

theorem beforeRead_accepted {d : Dispatch} {h : Http} (hr : h.AtRest) (hw : d.writes = []) :
    ∃ t, d.beforeRead h = { d.start h with trace := t } ∧ requestsOf t = [] ∧ bytesSent t = [] := by
  unfold Dispatch.beforeRead
  split
  · refine ⟨[.flush [] false, .flush [] false], ?_, rfl, rfl⟩
    unfold handleWrite
    rw [if_pos ⟨hr.hasError, by show h.connectionState ≠ _; rw [hr.connectionState]; simp⟩]
    dsimp only
    rw [flush_flush_accepted hw]
    simp [Dispatch.start, hr.writeBuffer]
  · exact ⟨[], rfl, rfl, rfl⟩

/-- `HandleCurrentConn` adds nothing to what was done for the requests. -/
theorem ServedBy.handleCurrentConn {c out : Conn} {o : Outcome} {w : Bytes}
    (h : ServedBy c out o w) (hk : out.http.keepAlive = true) :
    ServedBy c (handleCurrentConn out) o w := by
  obtain ⟨h1, h2, h3, h4, h5⟩ := h
  unfold FlashWeb.handleCurrentConn
  dsimp only
  split
  · have hrest : ∀ ev, o.hasError = false → out.http.processState = .stateParseUri →
        ((out.emit .seperateTimer).listen ev).http.AtRest ∧ out.http.readBuffer = w := by
      intro ev ho hp
      obtain ⟨hr, hb⟩ := h5 ho hp
      exact ⟨⟨hr.processState, hr.headerLineState, hr.headerKv, hr.connectionState, hr.hasError,
        hr.writeBuffer⟩, hb⟩
    split
    · rw [if_pos (show ((out.emit .seperateTimer).listen EventMask.outEt).http.keepAlive = true
        from hk)]
      exact ⟨by simp [Conn.listen, h1, Effect.processed], by simp [Conn.listen, h2, Effect.sent],
        h3, h4, hrest _⟩
    · rw [if_pos (show (out.emit .seperateTimer).http.keepAlive = true from hk)]
      exact ⟨by simp [Conn.listen, h1, Effect.processed], by simp [Conn.listen, h2, Effect.sent],
        h3, h4, hrest _⟩
  · next hc =>
    have hrest : ∀ p : Prop, o.hasError = false → out.http.processState = .stateParseUri → p := by
      intro p ho hp
      obtain ⟨hr, -⟩ := h5 ho hp
      exact absurd ⟨hr.hasError, hr.connectionState⟩ hc
    split
    · split
      · exact ⟨by simp [Conn.listen, h1, Effect.processed], by simp [Conn.listen, h2, Effect.sent],
          h3, h4, hrest _⟩
      · exact ⟨by simp [handleClose, h1, Effect.processed],
          by simp [handleClose, h2, Effect.sent], h3, h4, hrest _⟩
    · exact ⟨by simp [h1, Effect.processed], by simp [h2, Effect.sent], h3, h4, hrest _⟩

/-- What `HandleRead` has done when it returns. -/
theorem handleRead_served {fs : FileSystem} {d : Dispatch} {bytes : Bytes} {h : Http}
    (hd : Delivers fs d bytes) (hr : h.AtRest) :
    ∃ o w, Serves fs (h.readBuffer ++ bytes) o w ∧
      ServedBy (d.start h) (handleRead fs d.before (d.beforeRead h)) o w := by
  obtain ⟨t, ht, htr, hts⟩ := beforeRead_accepted hr hd.writes
  have hrest : (d.beforeRead h).http.AtRest := by
    rw [ht]
    exact ⟨hr.processState, hr.headerLineState, hr.headerKv, hr.connectionState, hr.hasError,
      hr.writeBuffer⟩
  obtain ⟨o, w, hs, hby⟩ := handleRead_serves fs d.before (d.beforeRead h) hrest
    (by rw [ht]; exact hd.onlyData) (by rw [ht]; exact hd.writes)
  rw [ht] at hs
  refine ⟨o, w, ?_, ?_, ?_, hby.left, hby.hasError, hby.rest⟩
  · rw [← hd.delivered]
    exact hs
  · rw [hby.requests, ht]
    simp [htr, Dispatch.start]
  · rw [hby.sent, ht]
    simp [hts, Dispatch.start]

/-- **What an event does that delivers bytes to a connection at rest.** -/
theorem run_served {fs : FileSystem} {d : Dispatch} {bytes : Bytes} {h : Http}
    (hd : Delivers fs d bytes) (hr : h.AtRest) (hk : h.keepAlive = true) {o : Outcome} {w : Bytes}
    (hby : ServedBy (d.start h) (handleRead fs d.before (d.beforeRead h)) o w) :
    ServedBy (d.start h) (d.run h) o w ∧ (d.run h).http.keepAlive = true ∧
      (d.run h).http.processState =
        (handleRead fs d.before (d.beforeRead h)).http.processState := by
  have hI := preserved_keepAlive fs
  rw [← hd.fs] at hI
  have hkeep := hI.handleRead d.before (hr.live.beforeRead d) (hI.beforeRead hk)
  rw [hd.fs] at hkeep
  have hrun : d.run h = handleCurrentConn (handleRead fs d.before (d.beforeRead h)) := by
    rw [d.run_eq h (by simp [hd.readable]), Dispatch.beforeConn, if_pos (Or.inl hd.readable), hd.fs]
  obtain ⟨st, ev, hframe⟩ := handleCurrentConn_frame (handleRead fs d.before (d.beforeRead h))
  rw [hrun]
  refine ⟨hby.handleCurrentConn hkeep, ?_, ?_⟩
  · rw [hframe]
    exact hkeep
  · rw [hframe]

/-! ## The first of two requests -/

/-- The bytes end with the empty line behind the header of the first request. -/
def EndsAtBlankLine (a : Bytes) : Prop :=
  ∃ line header, lineDelimiter ∉ line ∧ a = line ++ lineDelimiter :: header ∧ EndsHeader header

/-- **Bytes behind a whole request: all but perhaps the first are left for the next one.** -/
theorem firstRequest_append {a : Bytes} {r : Request} (ha : firstRequest a = .get r [])
    (b : Bytes) :
    (EndsAtBlankLine a → firstRequest (a ++ b) = .get r b.tail) ∧
      (¬ EndsAtBlankLine a → firstRequest (a ++ b) = .get r b) := by
  rcases firstRequest_cases a with
    ⟨-, hw⟩ | ⟨line, header, hl, hcut, ⟨-, hr⟩ | ⟨m, path, v, hacc, hr⟩⟩
  · rw [hw] at ha; simp at ha
  · rw [hr] at ha; simp at ha
  · rw [hr] at ha
    obtain ⟨hm, -, s, hd, hrun, hreq⟩ := headerRequest_get ha
    have happ : firstRequest (a ++ b) = headerRequest m path v (header ++ b) := by
      rw [hcut, List.append_assoc, List.cons_append]
      exact firstRequest_accepted hl hacc
    rw [happ]
    unfold headerRequest
    rw [headerScanner.run_append_of_run hrun, hm]
    by_cases hended : s.phase = .ended
    · -- the byte behind the blank line is already in `a`
      refine ⟨?_, fun _ => ?_⟩
      · rintro ⟨line', header', hl', hcut', s', hrun', hp'⟩
        obtain ⟨-, hheader⟩ := cut_unique hl hl' (hcut.symm.trans hcut')
        rw [← hheader, hrun, Option.some.injEq, Prod.mk.injEq] at hrun'
        rw [← hrun'.1, hended] at hp'
        simp at hp'
      · rw [headerScanner.run_halted (headerScanner_halted.mpr hended)]
        dsimp only
        rw [if_pos hd, hreq, hm]
    · -- the scanner stands behind the blank line and takes one byte of `b` more
      have hend : s.phase = .endLf := by
        revert hd hended
        cases s.phase <;> simp [Phase.Done]
      refine ⟨fun _ => ?_, fun hno => absurd ⟨line, header, hl, hcut, s, hrun, hend⟩ hno⟩
      cases b with
      | nil =>
        rw [headerScanner.run_nil]
        dsimp only
        rw [if_pos hd, hreq, hm]
        rfl
      | cons c b =>
        have hstep : headerScanner.step s c = some { s with phase := .ended, kept := [c] } := by
          simp [headerScanner, scanStep, hend]
        rw [headerScanner.run_cons (by simp [headerScanner, hend]), hstep, Option.bind_some,
          headerScanner.run_halted rfl]
        dsimp only
        rw [if_pos (show Phase.ended.Done from trivial), hreq, hm]
        rfl

/-! ## The second of two requests -/

/-- An empty request line is rejected. -/
theorem parseHeaderLine_nil (h : Http) : (parseHeaderLine [] h).1 = .parseUriError := by
  unfold parseHeaderLine
  rw [show find (text "GET") [] 0 = none from rfl, show find (text "POST") [] 0 = none from rfl]

/-- Without its first byte a request still ends at the same place. -/
theorem firstRequest_tail {b rest rest' : Bytes} {r r' : Request}
    (h : firstRequest b = .get r rest) (h' : firstRequest b.tail = .get r' rest') :
    rest = rest' := by
  rcases firstRequest_cases b with
    ⟨-, hw⟩ | ⟨line, header, hl, hcut, ⟨-, hr⟩ | ⟨m, path, v, hacc, hr⟩⟩
  · rw [hw] at h; simp at h
  · rw [hr] at h; simp at h
  · rw [hr] at h
    obtain ⟨-, -, s, -, hrun, -⟩ := headerRequest_get h
    cases line with
    | nil =>
      have := hacc (Http.construct true)
      have hnil := parseHeaderLine_nil (Http.construct true)
      rw [this] at hnil
      simp at hnil
    | cons c line =>
      have hl' : lineDelimiter ∉ line := fun hd => hl (List.mem_cons_of_mem _ hd)
      rw [hcut, List.cons_append, List.tail_cons] at h'
      rcases parseHeaderLine_cases line with ⟨m', path', v', hacc'⟩ | hrej
      · rw [firstRequest_accepted hl' hacc'] at h'
        obtain ⟨-, -, s', -, hrun', -⟩ := headerRequest_get h'
        rw [hrun, Option.some.injEq, Prod.mk.injEq] at hrun'
        exact hrun'.2
      · rw [firstRequest_rejected hl' hrej] at h'
        simp at h'

/-- Bytes with the same first request come to the same. -/
theorem Serves.congr {fs : FileSystem} {s s' w : Bytes} {o : Outcome} (h : Serves fs s o w)
    (heq : firstRequest s = firstRequest s') : ∃ w', Serves fs s' o w' := by
  cases h with
  | waiting hf => exact ⟨_, .waiting (heq ▸ hf)⟩
  | refused hf => exact ⟨_, .refused (heq ▸ hf)⟩
  | missing hf hfile => exact ⟨_, .missing (heq ▸ hf) hfile⟩
  | served hf hfile hs => exact ⟨_, .served (heq ▸ hf) hfile hs⟩

/-- What becomes of the bytes shows their first request, up to where it ends. -/
theorem Serves.first {fs : FileSystem} {s s' w w' : Bytes} {o : Outcome} (h : Serves fs s o w)
    (h' : Serves fs s' o w') :
    firstRequest s = firstRequest s' ∨
      ∃ r rest rest', firstRequest s = .get r rest ∧ firstRequest s' = .get r rest' := by
  cases h with
  | waiting hf =>
    cases h' with
    | waiting hf' => exact Or.inl (hf.trans hf'.symm)
  | refused hf =>
    cases h' with
    | refused hf' => exact Or.inl (hf.trans hf'.symm)
  | missing hf hfile =>
    generalize ho : Outcome.mk _ _ _ _ = o at h'
    cases h' with
    | waiting => simp at ho
    | refused => simp at ho
    | missing hf' =>
      simp only [Outcome.mk.injEq, List.cons.injEq, Prod.mk.injEq, and_true] at ho
      exact Or.inr ⟨_, _, _, hf, ho.1 ▸ hf'⟩
    | served hf' => simp at ho
  | served hf hfile hs =>
    generalize ho : Outcome.mk _ _ _ _ = o at h'
    cases h' with
    | waiting => simp at ho
    | refused => simp at ho
    | missing hf' => simp at ho
    | served hf' =>
      simp only [Outcome.mk.injEq, List.cons.injEq, Prod.mk.injEq, and_true] at ho
      exact Or.inr ⟨_, _, _, hf, ho.1.1 ▸ hf'⟩

/-- **Losing the first byte shows unless the first request stays the same.** -/
theorem serves_tail_iff {fs : FileSystem} {b w w' : Bytes} {o o' : Outcome}
    (h : Serves fs b o w) (h' : Serves fs b.tail o' w') :
    o' = o ↔ firstRequest b = firstRequest b.tail := by
  constructor
  · rintro rfl
    rcases h.first h' with heq | ⟨r, rest, rest', hf, hf'⟩
    · exact heq
    · rw [hf, hf', firstRequest_tail hf hf']
  · intro heq
    obtain ⟨w₂, h₂⟩ := h.congr heq
    exact (h'.unique h₂).1

/-! ## Pipelining -/

/-- What was done for the requests of an event. -/
def Conn.outcome (c : Conn) : Outcome :=
  ⟨requestsOf c.trace, bytesSent c.trace, c.http.writeBuffer, c.http.hasError⟩

/-- What one event did and then another. -/
def Outcome.andThen (o p : Outcome) : Outcome :=
  ⟨o.requests ++ p.requests, o.sent ++ p.sent, p.left, p.hasError⟩

theorem ServedBy.outcome {d : Dispatch} {h : Http} {out : Conn} {o : Outcome} {w : Bytes}
    (hby : ServedBy (d.start h) out o w) : out.outcome = o := by
  obtain ⟨h1, h2, h3, h4, -⟩ := hby
  unfold Conn.outcome
  rw [h1, h2, h3, h4]
  rfl

/-- `HandleRead` returned after one request, `reset` and with nothing left in the buffer. -/
structure FinishesOne (out : Conn) : Prop where
  one : ∃ r, requestsOf out.trace = [(r, true)]
  atReset : out.http.processState = .stateParseUri
  noError : out.http.hasError = false
  drained : out.http.readBuffer = []

/-- A connection after `Init`. -/
def Http.fresh : Http := (Session.opened true).http

theorem fresh_atRest : Http.fresh.AtRest := ⟨rfl, rfl, rfl, rfl, rfl, rfl⟩

/-- A call that finishes one request found it in its bytes, and nothing behind it. -/
theorem FinishesOne.first {fs : FileSystem} {d : Dispatch} {h : Http} {a w : Bytes} {out : Conn}
    {o : Outcome} (hone : FinishesOne out) (hs : Serves fs a o w)
    (hby : ServedBy (d.start h) out o w) :
    ∃ r data, firstRequest a = .get r [] ∧ fs.file (cStr r.filePath) = some data ∧
      o = ⟨[(r, true)], okResponse r data, [], false⟩ := by
  obtain ⟨r, hr⟩ := hone.one
  have hreq : o.requests = [(r, true)] := by
    rw [hby.requests] at hr
    exact hr
  have herr : o.hasError = false := hby.hasError.symm.trans hone.noError
  obtain ⟨-, hw⟩ := hby.rest herr hone.atReset
  rw [hone.drained] at hw
  cases hs with
  | waiting hf => simp at hreq
  | refused hf => simp at hreq
  | missing hf hfile => simp at herr
  | @served _ rest _ data r' o' hf hfile hs' =>
    simp only [List.cons.injEq, Prod.mk.injEq, and_true] at hreq
    cases hs' with
    | waiting hf' =>
      rw [← hw] at hf
      refine ⟨r', data, hf, hfile, ?_⟩
      simp
    | refused => simp at herr
    | missing => simp at herr
    | served => simp at hreq

/--
**When pipelining is concatenation.** `a` is delivered by one event and makes `HandleRead` finish
one request. Delivering `a ++ b` by one event does what delivering `a` and then `b` does if and only
if `a` does not end with its empty line, or the first request in `b` is also the first one in `b`
without its first byte.
-/
theorem pipelining {fs : FileSystem} {a b : Bytes} {da db dab : Dispatch}
    (ha : Delivers fs da a) (hb : Delivers fs db b) (hab : Delivers fs dab (a ++ b))
    (hone : FinishesOne (handleRead fs da.before (da.beforeRead Http.fresh))) :
    (dab.run Http.fresh).outcome =
        (da.run Http.fresh).outcome.andThen (db.run (da.run Http.fresh).http).outcome ↔
      (EndsAtBlankLine a → firstRequest b = firstRequest b.tail) := by
  obtain ⟨oa, wa, hsa, hbya⟩ := handleRead_served ha fresh_atRest
  obtain ⟨r, data, hfirst, hfile, rfl⟩ := hone.first hsa hbya
  -- the first event leaves a connection at rest with an empty buffer
  obtain ⟨hruna, hkeepa, hstate⟩ := run_served ha fresh_atRest rfl hbya
  obtain ⟨hresta, hbufa⟩ := hruna.rest rfl (hstate.trans hone.atReset)
  have hwa : wa = [] := (hbya.rest rfl hone.atReset).2.symm.trans hone.drained
  rw [hwa] at hbufa
  -- the second event finds `b`, and the one that brings all finds `a ++ b`
  obtain ⟨ob, wb, hsb, hbyb⟩ := handleRead_served hb hresta
  obtain ⟨hrunb, -, -⟩ := run_served hb hresta hkeepa hbyb
  rw [hbufa, List.nil_append] at hsb
  obtain ⟨oab, wab, hsab, hbyab⟩ := handleRead_served hab fresh_atRest
  obtain ⟨hrunab, -, -⟩ := run_served hab fresh_atRest rfl hbyab
  rw [hrunab.outcome, hruna.outcome, hrunb.outcome]
  obtain ⟨happend, happend'⟩ := firstRequest_append hfirst b
  have hcons : ∀ {rest w : Bytes} {o : Outcome}, firstRequest (a ++ b) = .get r rest →
      Serves fs rest o w → (oab = Outcome.andThen ⟨[(r, true)], okResponse r data, [], false⟩ ob ↔
        o = ob) := by
    intro rest w o hf hs
    rw [(hsab.unique (.served hf hfile hs)).1]
    obtain ⟨reqs, sent, left, err⟩ := o
    obtain ⟨reqs', sent', left', err'⟩ := ob
    simp [Outcome.andThen]
  by_cases hend : EndsAtBlankLine a
  · obtain ⟨o, w, hs⟩ := serves_total fs b.tail
    rw [hcons (happend hend) hs, serves_tail_iff hsb hs]
    exact ⟨fun h _ => h, fun h => h hend⟩
  · rw [hcons (happend' hend) hsb]
    exact ⟨fun _ h => absurd h hend, fun _ => rfl⟩

/-! ## Two runs -/

theorem delivers_bringing (fs : FileSystem) (chunk : Chunk) :
    Delivers fs (.bringing fs chunk) chunk.bytes where
  readable := rfl
  onlyData _ hr := ⟨chunk, List.mem_singleton.mp hr⟩
  delivered := List.append_nil _
  writes := rfl
  fs := rfl

/-- The same request behind a line feed. -/
def laterRequest : Chunk := ⟨LF :: plainRequest.bytes, by decide, by decide⟩

theorem finishesOne_plainRequest :
    FinishesOne
      (handleRead .blank 0 ((Dispatch.bringing .blank plainRequest).beforeRead .fresh)) where
  one := ⟨_, rfl⟩
  atReset := rfl
  noError := rfl
  drained := rfl

/-- A line feed in front of the second request takes the loss. -/
theorem pipelining_line_feed :
    ((Dispatch.bringing .blank ⟨plainRequest.bytes ++ laterRequest.bytes, by decide, by decide⟩).run
        .fresh).outcome =
      ((Dispatch.bringing .blank plainRequest).run .fresh).outcome.andThen
        ((Dispatch.bringing .blank laterRequest).run
          ((Dispatch.bringing .blank plainRequest).run .fresh).http).outcome :=
  (pipelining (delivers_bringing _ _) (delivers_bringing _ _) (delivers_bringing _ _)
    finishesOne_plainRequest).mpr fun _ => rfl

/-- Without it the second request is refused. -/
theorem plain_requests_not_pipelined :
    FinishesOne (handleRead .blank 0
        ((Dispatch.bringing .blank plainRequest).beforeRead .fresh)) ∧
      ((Dispatch.bringing .blank ⟨plainRequest.bytes ++ plainRequest.bytes, by decide,
          by decide⟩).run .fresh).outcome ≠
        ((Dispatch.bringing .blank plainRequest).run .fresh).outcome.andThen
          ((Dispatch.bringing .blank plainRequest).run
            ((Dispatch.bringing .blank plainRequest).run .fresh).http).outcome := by
  refine ⟨finishesOne_plainRequest, fun h => ?_⟩
  have herr := congrArg Outcome.hasError h
  revert herr
  decide

end FlashWeb
