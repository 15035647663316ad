import FlashWeb.Properties.Clients
import FlashWeb.Properties.Lifecycle

/-!
# Errors are final

What is no request is answered with one page of `HandleError`, a file that cannot be read with two.
Whichever it is, the connection is taken out of the loop behind them and nothing else is done for it
any more: no request behind the bad one is processed and nothing more is written. So in the log of a
connection an error stands at the end or not at all.
-/

namespace FlashWeb

open Lib

/-! ## The end of an event with an error -/

/-- Only an error has this effect. -/
def Effect.Fails : Effect → Prop
  | .process _ ok => ok = false
  | .malformed => True
  | .page .. => True
  | _ => False

/-- No error occurs. -/
def Unfailing (trace : List Effect) : Prop := ∀ e ∈ trace, ¬ e.Fails

@[simp] theorem unfailing_nil : Unfailing [] := fun _ he => absurd he List.not_mem_nil

@[simp] theorem unfailing_cons {e : Effect} {trace : List Effect} :
    Unfailing (e :: trace) ↔ ¬ e.Fails ∧ Unfailing trace := List.forall_mem_cons

@[simp] theorem unfailing_append {trace trace' : List Effect} :
    Unfailing (trace ++ trace') ↔ Unfailing trace ∧ Unfailing trace' := List.forall_mem_append

theorem Unfailing.concat {trace : List Effect} {e : Effect} (h : Unfailing trace)
    (he : ¬ e.Fails) : Unfailing (trace ++ [e]) := by
  simp [h, he]

/-- A page of `HandleError`, as far as the peer takes it. -/
def Effect.IsPage (errCode : Nat) (errMsg : Bytes) (e : Effect) : Prop :=
  ∃ queued header body, e = .page errCode errMsg queued header body ∧
    header <+: errorHeader errCode errMsg ∧ body <+: errorBody errCode errMsg

/-- What is done about an error. -/
inductive Apology (fs : FileSystem) : List Effect → Prop where
  | malformed {page : Effect} : page.IsPage 400 (text "Bad Request") →
      Apology fs [.malformed, page]
  | missing {r : Request} {page page' : Effect} : r.method = some .methodGet →
      fs.file (cStr r.filePath) = none → page.IsPage 404 (text "Not Found!") →
      page'.IsPage 400 (text "Bad Request") → Apology fs [page, .process r false, page']

/-- An error occurs, and behind it the connection is taken out of the loop. -/
def EndsInError (fs : FileSystem) (trace : List Effect) : Prop :=
  ∃ pre post, Unfailing pre ∧ Apology fs post ∧
    trace = pre ++ post ++ [.removeFromEpoller, .seperateTimer]

theorem handleError_spec (errCode : Nat) (errMsg : Bytes) (c : Conn) :
    ∃ page, page.IsPage errCode errMsg ∧
      (handleError errCode errMsg c).trace = c.trace ++ [page] ∧
      (handleError errCode errMsg c).http = c.http :=
  ⟨_, ⟨_, _, _, rfl, writeToFdRaw_sent _ _, writeToFdRaw_sent _ _⟩, rfl, rfl⟩

/-! ## Until `HandleCurrentConn` -/

/-- Without an error none is in the trace, and otherwise it is at the end. -/
structure ErrorLast (fs : FileSystem) (c : Conn) : Prop where
  unfailing : c.http.hasError = false → Unfailing c.trace
  failed : c.http.hasError = true → c.http.connectionState = .disconnected ∧
    ∃ pre post, Unfailing pre ∧ Apology fs post ∧ c.trace = pre ++ post ++ [.removeFromEpoller]

/-- What is done without an error. -/
theorem ErrorLast.of_unfailing {fs : FileSystem} {c : Conn} (he : c.http.hasError = false)
    (h : Unfailing c.trace) : ErrorLast fs c where
  unfailing _ := h
  failed he' := absurd (he.symm.trans he') Bool.false_ne_true

/-- What is done about an error. -/
theorem ErrorLast.failWith {fs : FileSystem} {c : Conn} {pre post : List Effect}
    (hpre : Unfailing pre) (htrace : c.trace = pre ++ post)
    (hpost : ∀ page : Effect, page.IsPage 400 (text "Bad Request") →
      Apology fs (post ++ [page])) : ErrorLast fs c.failWith := by
  obtain ⟨page, hpage, htr, hhttp⟩ := handleError_spec 400 (text "Bad Request")
    { c with http := { c.http with hasError := true } }
  refine ⟨fun he => ?_, fun _ => ⟨rfl, pre, post ++ [page], hpre, hpost page hpage, ?_⟩⟩
  · exact absurd he (by simp [Conn.failWith, handleClose, badRequest, hhttp])
  · show (badRequest c).trace ++ [.removeFromEpoller] = _
    rw [badRequest, htr, htrace, List.append_assoc pre post]

theorem preserved_errorLast (fs : FileSystem) : PreservedByRead fs (ErrorLast fs) where
  parsed c p rs h he hf := .of_unfailing (hf.hasError.trans he) (h.unfailing he)
  flush c h he _ := .of_unfailing he ((h.unfailing he).concat id)
  listen c ev h := ⟨h.unfailing, h.failed⟩
  served c data h he _ _ := .of_unfailing he ((h.unfailing he).concat (by simp [Effect.Fails]))
  reset c h he _ := .of_unfailing he ((h.unfailing he).concat id)
  malformed c h he :=
    .failWith (h.unfailing he) rfl fun _ hpage => .malformed hpage
  refused c h he hr hfile := by
    obtain ⟨page, hpage, htr, -⟩ := handleError_spec 404 (text "Not Found!") { c with
      http := { c.http with
        writeBuffer := fs.leftover c.http.request c.http.writeBuffer
        keepAlive := c.http.keptAlive c.http.headerKv } }
    have htrace : (FlashWeb.refused fs c).trace =
        c.trace ++ [page, .process c.http.request false] := by
      rw [FlashWeb.refused, Conn.emit_trace, htr, List.append_assoc]
      rfl
    exact .failWith (h.unfailing he) htrace fun _ hpage' => .missing hr.method hfile hpage hpage'

/-! ## One event -/

/-- How an event leaves the connection. -/
inductive Ends (fs : FileSystem) (out : Conn) : Prop where
  | well : out.http.hasError = false → Unfailing out.trace → Ends fs out
  | error : out.http.hasError = true → out.http.connectionState = .disconnected →
      EndsInError fs out.trace → Ends fs out

/-- `HandleCurrentConn` leaves a failed connection alone. -/
theorem ErrorLast.handleCurrentConn {fs : FileSystem} {c : Conn} (h : ErrorLast fs c) :
    Ends fs (handleCurrentConn c) := by
  have hout := handleCurrentConn_concludes c
  generalize FlashWeb.handleCurrentConn c = out at hout ⊢
  cases he : c.http.hasError with
  | true =>
    obtain ⟨hclosed, pre, post, hpre, hpost, htrace⟩ := h.failed he
    cases hout with
    | gone =>
      refine .error he hclosed ⟨pre, post, hpre, hpost, ?_⟩
      rw [Conn.emit_trace, htrace, List.append_assoc]
      rfl
    | _ => simp_all
  | false =>
    have hclean := h.unfailing he
    cases hout with
    | busy => exact .well he (by simp [Conn.listen, hclean, Effect.Fails])
    | idle => exact .well he (by simp [Conn.listen, hclean, Effect.Fails])
    | finished => exact .well he (by simp [FlashWeb.handleClose, hclean, Effect.Fails])
    | draining => exact .well he (by simp [Conn.listen, hclean, Effect.Fails])
    | drained => exact .well he (by simp [FlashWeb.handleClose, hclean, Effect.Fails])
    | gone => exact .well he (by simp [hclean, Effect.Fails])

/-- **An event ends well or with the error.** -/
theorem Dispatch.run_ends (d : Dispatch) {h : Http} (hl : h.Live) : Ends d.fs (d.run h) := by
  have hstart : ErrorLast d.fs (d.start h) := .of_unfailing hl.noError unfailing_nil
  by_cases ha : d.active.epollhup ∧ ¬ d.active.epollin
  · rw [d.run_hup h ha]
    exact .well hl.noError unfailing_nil
  · rw [d.run_eq h ha]
    exact ((preserved_errorLast d.fs).beforeConn hl hstart).handleCurrentConn

/-! ## A whole connection -/

/-- What was seen of a connection ends with an error. -/
def EndInError (seen : List (Dispatch × List Effect)) : Prop :=
  ∃ front d trace, seen = front ++ [(d, trace)] ∧ (∀ p ∈ front, Unfailing p.2) ∧
    EndsInError d.fs trace

/-- Either no error has occurred or it was the last thing that happened. -/
inductive Session.Ends (seen : List (Dispatch × List Effect)) (t : Session) : Prop where
  | well : t.http.hasError = false → (∀ p ∈ seen, Unfailing p.2) → Ends seen t
  | error : t.http.hasError = true → t.http.connectionState = .disconnected → EndInError seen →
      Ends seen t

/-- The step lemma: an event begins only on a connection that has not failed. -/
theorem Session.Ends.step {seen : List (Dispatch × List Effect)} {t : Session} {d : Dispatch}
    (h : t.Ends seen) (hopen : t.http.connectionState ≠ .disconnected) (hl : t.http.Live) :
    (t.dispatch d).Ends (seen ++ [(d, (d.run t.http).trace)]) := by
  cases h with
  | error _ hclosed => exact absurd hclosed hopen
  | well _ hseen =>
    cases d.run_ends hl with
    | well he htrace =>
      refine .well he fun p hp => ?_
      rcases List.mem_append.mp hp with hp | hp
      · exact hseen p hp
      · obtain rfl := List.mem_singleton.mp hp
        exact htrace
    | error he hclosed hends => exact .error he hclosed ⟨seen, d, _, rfl, hseen, hends⟩

/-- **In a session an error is the last thing that happens.** -/
theorem session_ends {seen : List (Dispatch × List Effect)} {t : Session}
    (h : sessions.Observed Session.watched seen t) : t.Ends seen := by
  induction h with
  | init hi =>
    obtain rfl := hi
    exact .well rfl fun p hp => absurd hp List.not_mem_nil
  | @step seen t t' d hrun hstep ih =>
    obtain ⟨hopen, -, rfl⟩ := hstep
    exact ih.step hopen ((session_live hrun.reachable).resolve_right hopen)

namespace EventLoop

variable {wakeupFd : Fd} {s : EventLoop} {id : HttpId}

/-- The connection is gone: no longer registered, closed once, and without an owner. -/
structure Gone (s : EventLoop) (id : HttpId) : Prop where
  unregistered : ¬ s.Registered id
  closed : s.closes id = 1
  unowned : ¬ s.Owned id

/-- **Where a session has ended with an error the connection is gone when the event is over.** -/
theorem gone_of_error {t : Session} (hr : (loops wakeupFd).Reachable s) (hm : Mirrors id s t)
    (he : t.http.hasError = true) (hcur : s.phase.current ≠ some id) : s.Gone id := by
  have hok := reachable_ok hr
  have hpl := reachable_placed hr
  have hreg : ¬ s.Registered id := fun hreg => by
    have hlive := hok.live hcur hreg
    rw [hm.http hreg] at hlive
    exact Bool.false_ne_true (hlive.noError.symm.trans he)
  have hopened : ¬ (s.accepted ≤ id ∨ id ∈ s.pending) := fun h => by
    rw [hm.opened h] at he
    exact Bool.false_ne_true he
  obtain ⟨hacc, hpend⟩ := not_or.mp hopened
  have hinit : id < s.inits := by
    by_contra hle
    refine hpend ?_
    rw [hpl.queue, List.mem_range'_1, Nat.add_sub_cancel' hpl.inits_le]
    exact ⟨Nat.le_of_not_lt hle, Nat.lt_of_not_le hacc⟩
  have hclosed : s.closes id ≠ 0 := fun h => hreg (hpl.opened id hinit h)
  refine ⟨hreg, Nat.le_antisymm (hok.rests id hcur).once (Nat.pos_of_ne_zero hclosed), ?_⟩
  rw [owned_iff_not_closed hr hcur]
  exact fun h => hclosed h.2

end EventLoop

/-! ## A connection of a server -/

namespace Server

variable {wakeupFd : Nat → Fd} {threadNum : Nat} {s : Server} {k : Nat} {id : HttpId}

/--
**Errors are final.** In every run of the server, whatever the bytes are that come in on a
connection and whatever else the server does: either no error has occurred on the connection, or the
event in which it occurred is the last one, and its trace ends with the pages and
`RemoveFromEpoller`. No file that is asked for behind the error is looked for, nothing more is
written, and when the event is over the connection is gone.
-/
theorem errors_final {seen : List (Dispatch × List Effect)}
    (h : (servers wakeupFd threadNum).Observed (handled k id) seen s) (hk : k < s.started) :
    (∀ p ∈ seen, Unfailing p.2) ∨
      (EndInError seen ∧
        ((s.threads k).loop.phase.current ≠ some id → (s.threads k).loop.Gone id)) := by
  have hloop := (worker_observed h).1 hk
  obtain ⟨t, ht, hm⟩ := EventLoop.watched_of_handled hloop
  cases session_ends ht with
  | well _ hseen => exact Or.inl hseen
  | error he _ hend => exact Or.inr ⟨hend, EventLoop.gone_of_error hloop.reachable hm he⟩

/-- A line that is no request. -/
def noise : Chunk := ⟨text "xr", by decide, by decide⟩

/-- It comes in as the first thing on a connection. -/
def noiseEvent : Dispatch := .bringing .blank noise

/-- The peer gets the page and is disconnected. -/
theorem errors_final_noiseEvent :
    ∃ seen u, (servers (fun _ => 3) 1).Observed (handled 0 0) seen u ∧ EndInError seen ∧
      (u.threads 0).loop.Gone 0 := by
  let begun := (EventLoop.serving.wait [(5, noiseEvent.active)]).begin 0 noiseEvent []
  have hreport : EventMask.inEt.Reportable noiseEvent.active := by decide
  have hstep : Steps 3 (EventLoop.serving.wait [(5, noiseEvent.active)]) (.begin noiseEvent)
      begun := Steps.begin noiseEvent rfl
  have hwait := welcome_step welcome_handled (EventLoop.serving_wait hreport) (by simp)
  have hbegin := welcome_step hwait hstep (by simp)
  have hdone := welcome_finish (h := ⟨0, noiseEvent, _, [], []⟩) hbegin rfl
  rcases errors_final hdone Nat.one_pos with hwell | ⟨hend, hgone⟩
  · have hno := hwell (noiseEvent, _) (List.mem_singleton_self _)
    exact absurd trivial (hno .malformed List.mem_cons_self)
  · exact ⟨_, _, hdone, hend, hgone fun h => Option.some_ne_none 0 h.symm⟩

end Server

end FlashWeb
