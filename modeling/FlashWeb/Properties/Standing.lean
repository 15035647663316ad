import FlashWeb.Properties.Dispatch

/-!
# What an event does to the place of a connection in its loop

Of the calls that a connection makes on its loop only two facts matter later: whether it is still
registered and whether a timer node holds it. `Effect.standing` is what each call makes of the two,
and fails where a call would be made out of turn: an update of a connection that is gone or still
has a node, or a second removal. `Dispatch.outcome` says that no event makes such a call, and where
the connection stands afterwards; the decision is `HandleCurrentConn`'s, or `HandleRead`'s when the
request is bad.
-/

namespace FlashWeb

/-- The place of a connection in its loop. -/
structure Standing where
  registered : Bool
  timed : Bool
  deriving DecidableEq, Repr

/-- What an effect makes of it. -/
def Effect.standing (st : Standing) : Effect → Option Standing
  | .seperateTimer => some { st with timed := false }
  | .updateEpoller _ timeout =>
    if st.registered = true ∧ st.timed = false ∧ 0 < timeout then some { st with timed := true }
    else none
  | .removeFromEpoller =>
    if st.registered = true then some { st with registered := false } else none
  | _ => some st

/-- What a list of effects makes of it. -/
def Standing.follow (st : Standing) (es : List Effect) : Option Standing :=
  es.foldlM Effect.standing st

@[simp] theorem Standing.follow_nil (st : Standing) : st.follow [] = some st := rfl

@[simp] theorem Standing.follow_cons (st : Standing) (e : Effect) (es : List Effect) :
    st.follow (e :: es) = (e.standing st).bind fun st => st.follow es := by
  simp [Standing.follow, List.foldlM_cons]

@[simp] theorem Standing.follow_append (st : Standing) (es fs : List Effect) :
    st.follow (es ++ fs) = (st.follow es).bind fun st => st.follow fs := by
  simp [Standing.follow, List.foldlM_append]

/-- A connection that is no longer registered is not registered again. -/
theorem Effect.standing_registered {st st' : Standing} {e : Effect}
    (h : e.standing st = some st') (hr : st'.registered = true) : st.registered = true := by
  cases e <;> simp only [Effect.standing, Option.some.injEq, Option.ite_none_right_eq_some] at h
  case seperateTimer =>
    rw [← h] at hr
    exact hr
  case updateEpoller => exact h.1.1
  case removeFromEpoller => exact h.1
  all_goals
    rw [h]
    exact hr

/-- An effect gives a connection no owner if it had none. -/
theorem Effect.standing_held {st st' : Standing} {e : Effect}
    (h : e.standing st = some st') (hh : st'.registered = true ∨ st'.timed = true) :
    st.registered = true ∨ st.timed = true := by
  cases e <;> simp only [Effect.standing, Option.some.injEq, Option.ite_none_right_eq_some] at h
  case seperateTimer =>
    rw [← h] at hh
    exact Or.inl (hh.resolve_right (by simp))
  case updateEpoller => exact Or.inl h.1.1
  case removeFromEpoller => exact Or.inl h.1
  all_goals
    rw [h]
    exact hh

theorem Standing.follow_registered : ∀ {es : List Effect} {st st' : Standing},
    st.follow es = some st' → st'.registered = true → st.registered = true
  | [], st, st', h, hr => by
    rw [Standing.follow_nil, Option.some.injEq] at h
    rw [h]
    exact hr
  | e :: es, st, st', h, hr => by
    rw [Standing.follow_cons, Option.bind_eq_some_iff] at h
    obtain ⟨mid, he, hes⟩ := h
    exact Effect.standing_registered he (Standing.follow_registered hes hr)

/-! ## Until `HandleCurrentConn` -/

/-- Until `HandleCurrentConn` only a bad request removes the connection. -/
theorem preserved_standing (fs : FileSystem) : PreservedByRead fs fun c =>
    ∀ timed, ∃ timed', Standing.follow ⟨true, timed⟩ c.trace =
      some ⟨!c.http.hasError, timed'⟩ where
  parsed c p rs h he hf timed := by
    obtain ⟨timed', ht⟩ := h timed
    exact ⟨timed', by simpa [Conn.parsed, hf.hasError, he] using ht⟩
  flush c h he _ timed := by
    obtain ⟨timed', ht⟩ := h timed
    exact ⟨timed', by simp [flush, ht, Effect.standing]⟩
  listen c ev h := h
  served c data h he _ _ timed := by
    obtain ⟨timed', ht⟩ := h timed
    exact ⟨timed', by simp [served, ht, Effect.standing]⟩
  reset c h he _ timed := by
    obtain ⟨timed', ht⟩ := h timed
    exact ⟨false, by simp [reset, ht, Effect.standing]⟩
  malformed c h he timed := by
    obtain ⟨timed', ht⟩ := h timed
    exact ⟨timed', by
      simp [Conn.failWith, handleClose, badRequest, handleError, ht, he, Effect.standing]⟩
  refused c h he _ _ timed := by
    obtain ⟨timed', ht⟩ := h timed
    exact ⟨timed', by
      simp [refused, Conn.failWith, handleClose, badRequest, handleError, ht, he,
        Effect.standing]⟩

/-! ## What `HandleCurrentConn` decides -/

/-- `HandleCurrentConn` is called, and finds a connection that was closed or that it closes. -/
structure Dispatch.Closes (d : Dispatch) (h : Http) : Prop where
  attended : ¬ (d.active.epollhup ∧ ¬ d.active.epollin)
  found : (d.beforeConn h).http.hasError = true ∨
    ((d.beforeConn h).http.connectionState = .disconnecting ∧
      (d.beforeConn h).http.toListenEvents.epollout = false) ∨
    ((d.beforeConn h).http.connectionState = .connected ∧
      (d.beforeConn h).http.toListenEvents = EventMask.zero ∧
      (d.beforeConn h).http.keepAlive = false)

instance (d : Dispatch) (h : Http) : Decidable (d.Closes h) :=
  decidable_of_iff (_ ∧ _) ⟨fun h => ⟨h.1, h.2⟩, fun h => ⟨h.attended, h.found⟩⟩

/-- `HandleCurrentConn` is called, and finds `DISCONNECTING` and `EPOLLOUT`. -/
structure Dispatch.LeavesWaiting (d : Dispatch) (h : Http) : Prop where
  attended : ¬ (d.active.epollhup ∧ ¬ d.active.epollin)
  noError : (d.beforeConn h).http.hasError = false
  disconnecting : (d.beforeConn h).http.connectionState = .disconnecting
  epollout : (d.beforeConn h).http.toListenEvents.epollout = true

instance (d : Dispatch) (h : Http) : Decidable (d.LeavesWaiting h) :=
  decidable_of_iff (_ ∧ _ ∧ _ ∧ _)
    ⟨fun h => ⟨h.1, h.2.1, h.2.2.1, h.2.2.2⟩,
      fun h => ⟨h.attended, h.noError, h.disconnecting, h.epollout⟩⟩

/-- Where an event leaves a connection that was registered, and held by a node if `timed`. -/
structure Leaves (d : Dispatch) (h : Http) (timed : Bool) (st : Standing) : Prop where
  registered : st.registered = true ↔ ¬ d.Closes h
  gone : st.timed = true → st.registered = true
  live : st.registered = true → (d.run h).http.Live
  waiting : d.LeavesWaiting h → st.timed = false
  armed : timed = true → ¬ d.LeavesWaiting h → st.registered = true → st.timed = true

theorem Leaves.closes {d : Dispatch} {h : Http} (timed : Bool) (hc : d.Closes h) :
    Leaves d h timed ⟨false, false⟩ where
  registered := ⟨fun hr => Bool.noConfusion hr, fun hn => absurd hc hn⟩
  gone ht := Bool.noConfusion ht
  live hr := Bool.noConfusion hr
  waiting _ := rfl
  armed _ _ hr := Bool.noConfusion hr

theorem Leaves.arms {d : Dispatch} {h : Http} (timed : Bool) (hc : ¬ d.Closes h)
    (hw : ¬ d.LeavesWaiting h) (hl : (d.run h).http.Live) : Leaves d h timed ⟨true, true⟩ where
  registered := ⟨fun _ => hc, fun _ => rfl⟩
  gone _ := rfl
  live _ := hl
  waiting h := absurd h hw
  armed _ _ _ := rfl

/-- **An event makes no call out of turn.** -/
theorem Dispatch.outcome (d : Dispatch) {h : Http} (hl : h.Live) (timed : Bool) :
    ∃ st, Standing.follow ⟨true, timed⟩ (d.run h).trace = some st ∧ Leaves d h timed st := by
  by_cases ha : d.active.epollhup ∧ ¬ d.active.epollin
  · -- `HandleEvents` returned at once
    have hrun := d.run_hup h ha
    refine ⟨⟨true, timed⟩, by rw [hrun]; rfl, ⟨fun _ hc => hc.attended ha, fun _ => rfl⟩,
      fun _ => rfl, fun _ => ?_, fun hw => absurd ha hw.attended, fun ht _ _ => ht⟩
    rw [hrun]
    exact hl.start d
  · obtain ⟨timed', ht⟩ := (preserved_standing d.fs).beforeConn (d := d) hl
      (fun timed => ⟨timed, by simp [Dispatch.start, hl.noError]⟩) timed
    -- what `HandleCurrentConn` finds is live, or failed and with `has_error_` set
    have hopen : (d.beforeConn h).http.hasError = false → (d.beforeConn h).http.Live :=
      fun he => (d.beforeConn_live hl).resolve_right fun hf => by
        rw [hf.hasError] at he
        exact Bool.noConfusion he
    have hout := handleCurrentConn_concludes (d.beforeConn h)
    rw [← d.run_eq h ha] at hout
    generalize hr : d.run h = out at hout
    cases hout with
    | busy ms he hc hev hms =>
      refine ⟨⟨true, true⟩, by simp [Conn.listen, ht, he, hms, Effect.standing],
        .arms _ ?_ (fun hw => by simpa [hc] using hw.disconnecting) ?_⟩
      · rintro ⟨-, h | h | h⟩
        · simp [he] at h
        · simp [hc] at h
        · exact hev h.2.1
      · rw [hr]
        exact (hopen he).listen EventMask.outEt
    | idle he hc hev hk =>
      refine ⟨⟨true, true⟩, by
          simp [Conn.listen, ht, he, DEFAULT_KEEP_ALIVE_TIME, Effect.standing],
        .arms _ ?_ (fun hw => by simpa [hc] using hw.disconnecting) ?_⟩
      · rintro ⟨-, h | h | h⟩
        · simp [he] at h
        · simp [hc] at h
        · simp [hk] at h
      · rw [hr]
        exact (hopen he).listen EventMask.inEt
    | finished he hc hev hk =>
      exact ⟨⟨false, false⟩, by simp [handleClose, ht, he, Effect.standing],
        .closes _ ⟨ha, Or.inr (Or.inr ⟨hc, hev, hk⟩)⟩⟩
    | draining he hc hev =>
      refine ⟨⟨true, false⟩, by simp [Conn.listen, ht, he, Effect.standing],
        ⟨fun _ => ?_, fun _ => rfl⟩, fun _ => rfl, fun _ => ?_, fun _ => rfl,
        fun _ hw => absurd ⟨ha, he, hc, hev⟩ hw⟩
      · rintro ⟨-, h | h | h⟩
        · simp [he] at h
        · simp [hev] at h
        · simp [hc] at h
      · rw [hr]
        exact (hopen he).listen EventMask.outEt
    | drained he hc hev =>
      exact ⟨⟨false, false⟩, by simp [handleClose, ht, he, Effect.standing],
        .closes _ ⟨ha, Or.inr (Or.inl ⟨hc, hev⟩)⟩⟩
    | gone hg =>
      have hf := (Http.Failed.of_gone (d.beforeConn_live hl) hg).hasError
      exact ⟨⟨false, false⟩, by simp [ht, hf, Effect.standing], .closes _ ⟨ha, Or.inl hf⟩⟩

end FlashWeb
