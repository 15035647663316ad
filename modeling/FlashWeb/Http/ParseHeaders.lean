import FlashWeb.Http.State

/-!
# `Http::ParseHeaders`

The automaton over the header bytes. `header_line_state` and `header_kv_` are members and survive
a call; the four indices and `now_read_line_begin` are locals of one call, so a call that is
resumed in the middle of a line runs with indices still at `-1`.

A key or value is the range of bytes between two indices, counted from `str.begin()`. An index of
`-1` points one byte in front of the string's storage. What is there is not the string's business:
`before` stands for that byte, and every result below is for any value of it.
-/

namespace FlashWeb

/-- `std::string(str.begin() + a, str.begin() + b)`, with `before` in front of `str`. -/
def range (before : UInt8) (str : Bytes) (a b : Int) : Bytes :=
  ((before :: str).drop (a + 1).toNat).take (b - a).toNat

/-- The members and locals of `ParseHeaders`. -/
structure HeaderLoop where
  headerLineState : HeaderLineState
  headerKv : HeaderMap
  keyStart : Int
  keyEnd : Int
  valueStart : Int
  valueEnd : Int
  nowReadLineBegin : Nat
  notFinish : Bool
  i : Nat

/-- The body of the loop, for `str[i] = c`. `.error` is `return PARSE_HEADER_ERROR`. -/
def headerStep (before : UInt8) (str : Bytes) (c : UInt8) (l : HeaderLoop) :
    Except HeaderLoop HeaderLoop :=
  match l.headerLineState with
  | .hStart =>
    if c = LF ∨ c = CR then .ok l
    else .ok { l with headerLineState := .hKey, keyStart := l.i, nowReadLineBegin := l.i }
  | .hKey =>
    if c = COLON then
      let l := { l with keyEnd := l.i }
      if l.keyEnd - l.keyStart ≤ 0 then .error l
      else .ok { l with headerLineState := .hColon }
    else if c = LF ∨ c = CR then .error l
    else .ok l
  | .hColon =>
    if c = SPACE then .ok { l with headerLineState := .hSpacesAfterColon } else .error l
  | .hSpacesAfterColon => .ok { l with headerLineState := .hValue, valueStart := l.i }
  | .hValue =>
    if c = CR then
      let l := { l with headerLineState := .hCr, valueEnd := l.i }
      if l.valueEnd - l.valueStart ≤ 0 then .error l else .ok l
    else if (l.i : Int) - l.valueStart > 255 then .error l
    else .ok l
  | .hCr =>
    if c = LF then
      let key := range before str l.keyStart l.keyEnd
      let value := range before str l.valueStart l.valueEnd
      .ok { l with
        headerLineState := .hLf, headerKv := l.headerKv.set key value, nowReadLineBegin := l.i }
    else .error l
  | .hLf =>
    if c = CR then .ok { l with headerLineState := .hEndCr }
    else .ok { l with keyStart := l.i, headerLineState := .hKey }
  | .hEndCr => if c = LF then .ok { l with headerLineState := .hEndLf } else .error l
  | .hEndLf => .ok { l with notFinish := false, keyStart := l.i, nowReadLineBegin := l.i }

/-- `for (; i < str.size() && notFinish; ++i)`, with the bytes from `i` on. -/
def headerLoop (before : UInt8) (str : Bytes) : Bytes → HeaderLoop → Except HeaderLoop HeaderLoop
  | [], l => .ok l
  | c :: rest, l =>
    if l.notFinish then
      match headerStep before str c l with
      | .error l => .error l
      | .ok l => headerLoop before str rest { l with i := l.i + 1 }
    else .ok l

/-- The locals as `ParseHeaders` declares them. -/
def HeaderLoop.enter (h : Http) : HeaderLoop where
  headerLineState := h.headerLineState
  headerKv := h.headerKv
  keyStart := -1
  keyEnd := -1
  valueStart := -1
  valueEnd := -1
  nowReadLineBegin := 0
  notFinish := true
  i := 0

/-- `Http::ParseHeaders` -/
def parseHeaders (before : UInt8) (h : Http) : ParseHeaderState × Http :=
  match headerLoop before h.readBuffer h.readBuffer (HeaderLoop.enter h) with
  | .error l =>
    (.parseHeaderError, { h with headerLineState := l.headerLineState, headerKv := l.headerKv })
  | .ok l =>
    let h := { h with headerLineState := l.headerLineState, headerKv := l.headerKv }
    if l.headerLineState = .hEndLf then
      (.parseHeaderSuccess, { h with readBuffer := h.readBuffer.drop l.i })
    else (.parseHeaderAgain, { h with readBuffer := h.readBuffer.drop l.nowReadLineBegin })

/-! ## What a call can do -/

section

variable {before : UInt8}

theorem headerStep_ok_i {str : Bytes} {c : UInt8} {l l' : HeaderLoop}
    (h : headerStep before str c l = .ok l') : l'.i = l.i := by
  unfold headerStep at h
  cases hst : l.headerLineState <;> simp only [hst] at h <;> try split_ifs at h
  all_goals
    cases h
    rfl

/-- No input is refused behind the empty line. -/
theorem headerStep_error_state {str : Bytes} {c : UInt8} {l l' : HeaderLoop}
    (h : headerStep before str c l = .error l') : l'.headerLineState ≠ .hEndLf := by
  unfold headerStep at h
  cases hst : l.headerLineState <;> simp only [hst] at h <;> try split_ifs at h
  all_goals cases h <;> simp [hst]

theorem headerLoop_error_state {str : Bytes} : ∀ {xs : Bytes} {l l' : HeaderLoop},
    headerLoop before str xs l = .error l' → l'.headerLineState ≠ .hEndLf
  | [], l, l', h => by simp [headerLoop] at h
  | c :: xs, l, l', h => by
    rw [headerLoop] at h
    split at h
    · cases hs : headerStep before str c l with
      | error e =>
        rw [hs] at h
        exact Except.error.inj h ▸ headerStep_error_state hs
      | ok l₁ =>
        rw [hs] at h
        exact headerLoop_error_state h
    · simp at h

theorem headerLoop_ok_i {str : Bytes} : ∀ {xs : Bytes} {l l' : HeaderLoop},
    headerLoop before str xs l = .ok l' → l.i ≤ l'.i ∧ (l.i = l'.i → l = l')
  | [], l, l', h => by
    obtain rfl : l = l' := Except.ok.inj h
    exact ⟨Nat.le_refl _, fun _ => rfl⟩
  | c :: xs, l, l', h => by
    rw [headerLoop] at h
    split at h
    · cases hs : headerStep before str c l with
      | error e =>
        rw [hs] at h
        simp at h
      | ok l₁ =>
        rw [hs] at h
        have hstep := headerStep_ok_i hs
        have hrest := (headerLoop_ok_i h).1
        dsimp only at hrest
        exact ⟨by omega, fun _ => by omega⟩
    · obtain rfl : l = l' := Except.ok.inj h
      exact ⟨Nat.le_refl _, fun _ => rfl⟩

/-- The loop on the first bytes, and then on those behind them. -/
theorem headerLoop_append {str : Bytes} (w : Bytes) : ∀ (p : Bytes) (l : HeaderLoop),
    headerLoop before str (p ++ w) l =
      match headerLoop before str p l with
      | .error l => .error l
      | .ok l => headerLoop before str w l
  | [], l => rfl
  | c :: p, l => by
    rw [List.cons_append, headerLoop, headerLoop]
    split
    · cases headerStep before str c l with
      | error e => rfl
      | ok l₁ => exact headerLoop_append w p _
    · next hn =>
      cases w with
      | nil => rfl
      | cons d w => exact (if_neg hn).symm

/--
**The invariant rule of the loop.** An invariant may speak of the bytes `p` read so far, and of how
the loop came from `l₀` to where it is.
-/
theorem headerLoop_invariant {str : Bytes} {l₀ : HeaderLoop} {I : Bytes → HeaderLoop → Prop}
    (hstep : ∀ p c t l l', str = p ++ c :: t → headerLoop before str p l₀ = .ok l → I p l →
      headerStep before str c l = .ok l' → I (p ++ [c]) { l' with i := l'.i + 1 }) :
    ∀ (w p t : Bytes) (l l' : HeaderLoop), str = p ++ (w ++ t) →
      headerLoop before str p l₀ = .ok l → I p l → headerLoop before str w l = .ok l' →
      ∃ q, q <+: str ∧ I q l' := by
  intro w
  induction w with
  | nil =>
    intro p t l l' hstr _ hI hl
    obtain rfl : l = l' := Except.ok.inj hl
    exact ⟨p, ⟨t, hstr.symm⟩, hI⟩
  | cons c w ih =>
    intro p t l l' hstr hp hI hl
    rw [headerLoop] at hl
    split at hl
    · next hn =>
      cases hs : headerStep before str c l with
      | error e =>
        rw [hs] at hl
        simp at hl
      | ok l₁ =>
        rw [hs] at hl
        have hp' : headerLoop before str (p ++ [c]) l₀ = .ok { l₁ with i := l₁.i + 1 } := by
          rw [headerLoop_append, hp]
          dsimp only
          rw [headerLoop, if_pos hn, hs]
          rfl
        have hI' := hstep p c (w ++ t) l l₁ hstr hp hI hs
        exact ih (p ++ [c]) t _ l' (by rw [hstr]; simp) hp' hI' hl
    · obtain rfl : l = l' := Except.ok.inj hl
      exact ⟨p, ⟨c :: w ++ t, hstr.symm⟩, hI⟩

/-- **A header that ends takes bytes out of the buffer, and one that does not can go on.** -/
theorem parseHeaders_progress {h : Http} (hst : h.headerLineState ≠ .hEndLf) :
    ((parseHeaders before h).1 ≠ .parseHeaderSuccess →
        (parseHeaders before h).2.headerLineState ≠ .hEndLf) ∧
      ((parseHeaders before h).1 = .parseHeaderSuccess →
        (parseHeaders before h).2.readBuffer.length < h.readBuffer.length) := by
  unfold parseHeaders
  cases hl : headerLoop before h.readBuffer h.readBuffer (HeaderLoop.enter h) with
  | error l => exact ⟨fun _ => headerLoop_error_state hl, fun hs => by simp at hs⟩
  | ok l =>
    obtain ⟨hle, hsame⟩ := headerLoop_ok_i hl
    dsimp only
    split
    · next hend =>
      refine ⟨fun hs => absurd rfl hs, fun _ => ?_⟩
      -- the loop went on, since `header_line_state` changed
      have hi : l.i ≠ 0 := by
        intro hi
        exact hst ((congrArg HeaderLoop.headerLineState (hsame hi.symm)).trans hend)
      have hbuf : h.readBuffer ≠ [] := by
        intro hnil
        rw [hnil, headerLoop, Except.ok.injEq] at hl
        exact hi (congrArg HeaderLoop.i hl).symm
      have hpos : 0 < h.readBuffer.length := List.length_pos_iff.mpr hbuf
      show (h.readBuffer.drop l.i).length < _
      rw [List.length_drop]
      omega
    · next hend => exact ⟨fun _ => hend, fun hs => by simp at hs⟩

end

end FlashWeb
