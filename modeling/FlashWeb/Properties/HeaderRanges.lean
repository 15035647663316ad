import FlashWeb.Properties.HeaderGrammar

/-!
# The ranges that key and value are built from

`H_CR` builds the key and the value from four indices that are locals of the call, while
`header_line_state` is not. In a call that starts between two lines every index has been set by the
time it is used (`HeaderLoop.Tracked`). A call that starts inside a line goes on with that line as
if it had read its beginning, and `key_start` is still `-1` when the line ends. So the ranges are
right as long as no such call comes to the end of its line.
-/

namespace FlashWeb

open Lib

/-! ## What the property is about -/

/-- The call of `ParseHeaders` on `h` builds a key and a value from the indices in `l`. -/
def Builds (before : UInt8) (h : Http) (l : HeaderLoop) : Prop :=
  ∃ p t, h.readBuffer = p ++ LF :: t ∧
    headerLoop before h.readBuffer p (HeaderLoop.enter h) = .ok l ∧ l.headerLineState = .hCr

/-- Key and value are ranges of a string of `size` bytes, one behind the other. -/
structure HeaderLoop.InRange (l : HeaderLoop) (size : Nat) : Prop where
  keyStart : 0 ≤ l.keyStart
  key : l.keyStart < l.keyEnd
  between : l.keyEnd ≤ l.valueStart
  value : l.valueStart < l.valueEnd
  valueEnd : l.valueEnd ≤ size

/-- The calls of `ParseHeaders` that `parsePieces` makes, with the byte in front of each buffer. -/
def parseCalls (before : Nat → UInt8) : Nat → Http → List Bytes → List (UInt8 × Http)
  | n, h, [] => [(before n, h)]
  | n, h, piece :: pieces =>
    (before n, h) ::
      match parseHeaders (before n) h with
      | (.parseHeaderAgain, h) =>
        parseCalls before (n + 1) { h with readBuffer := h.readBuffer ++ piece } pieces
      | _ => []

/-- What stands for the part of a line that an earlier call has read. -/
def opening : HeaderLineState → Bytes
  | .hKey => text "A"
  | .hColon => text "A:"
  | .hSpacesAfterColon => text "A: "
  | .hValue => text "A: x"
  | .hCr => text "A: x\r"
  | _ => []

/-- A line that an earlier call began ends in the buffer. -/
def Http.EndsLine (h : Http) : Prop :=
  h.headerLineState.MidLine ∧ ∃ l : HeaderLine, l.bytes <+: opening h.headerLineState ++ h.readBuffer

/-! ## Invariants of the loop -/

/-- The indices that are set in each state, after `n` bytes. -/
def HeaderLoop.Tracked (l : HeaderLoop) (n : Nat) : Prop :=
  match l.headerLineState with
  | .hKey => 0 ≤ l.keyStart ∧ l.keyStart < n
  | .hColon => 0 ≤ l.keyStart ∧ l.keyStart < l.keyEnd ∧ l.keyEnd < n
  | .hSpacesAfterColon => 0 ≤ l.keyStart ∧ l.keyStart < l.keyEnd ∧ l.keyEnd < n
  | .hValue => 0 ≤ l.keyStart ∧ l.keyStart < l.keyEnd ∧ l.keyEnd < l.valueStart ∧ l.valueStart < n
  | .hCr => 0 ≤ l.keyStart ∧ l.keyStart < l.keyEnd ∧ l.keyEnd < l.valueStart ∧
      l.valueStart < l.valueEnd ∧ l.valueEnd < n
  | _ => True

/-- Each state sets the index that the next one needs. -/
theorem HeaderLoop.Tracked.step {before : UInt8} {str : Bytes} {c : UInt8} {l l' : HeaderLoop}
    {n : Nat} (hi : l.i = n) (h : l.Tracked n) (hs : headerStep before str c l = .ok l') :
    HeaderLoop.Tracked { l' with i := l'.i + 1 } (n + 1) := by
  unfold headerStep at hs
  unfold HeaderLoop.Tracked at h ⊢
  cases hst : l.headerLineState <;> simp only [hst] at hs h <;> try split_ifs at hs
  all_goals
    cases hs
    simp only [hst]
    try omega

/-- No line has been stored, and `key_start` has not been set. -/
structure HeaderLoop.Astray (l : HeaderLoop) : Prop where
  midLine : l.headerLineState.MidLine
  keyStart : l.keyStart = -1

/-- `key_start` is set only between two lines. -/
theorem HeaderLoop.Astray.step {before : UInt8} {str : Bytes} {c : UInt8} {l l' : HeaderLoop}
    (h : l.Astray) (hs : headerStep before str c l = .ok l') :
    HeaderLoop.Astray { l' with i := l'.i + 1 } ∨ (l.headerLineState = .hCr ∧ c = LF) := by
  obtain ⟨hmid, hkey⟩ := h
  unfold headerStep at hs
  rcases hmid with hst | hst | hst | hst | hst <;> simp only [hst] at hs <;>
    try split_ifs at hs
  all_goals
    cases hs
    first
      | exact Or.inr ⟨hst, by assumption⟩
      | exact Or.inl ⟨by simp [HeaderLineState.MidLine, hst], hkey⟩

/-! ## Where a line ends -/

/-- An invariant of the loop holds of the locals that a key and a value are built from. -/
theorem Builds.invariant {before : UInt8} {h : Http} {l : HeaderLoop}
    {I : Bytes → HeaderLoop → Prop} (hb : Builds before h l) (hI : I [] (HeaderLoop.enter h))
    (hstep : ∀ p c t l l', h.readBuffer = p ++ c :: t →
      headerLoop before h.readBuffer p (HeaderLoop.enter h) = .ok l → I p l →
      headerStep before h.readBuffer c l = .ok l' → I (p ++ [c]) { l' with i := l'.i + 1 }) :
    ∃ p, p <+: h.readBuffer ∧ I p l := by
  obtain ⟨p, t, hbuf, hl, -⟩ := hb
  exact @headerLoop_invariant before _ _ I hstep p [] (LF :: t) _ l hbuf rfl hI hl

/-- **In a call that starts between two lines all indices are set.** -/
theorem Builds.inRange {before : UInt8} {h : Http} {l : HeaderLoop} (hb : Builds before h l)
    (hst : ¬ h.headerLineState.MidLine) : l.InRange h.readBuffer.length := by
  have hcr : l.headerLineState = .hCr := by
    obtain ⟨-, -, -, -, hcr⟩ := hb
    exact hcr
  have hstart : (HeaderLoop.enter h).Tracked 0 := by
    show HeaderLoop.Tracked { HeaderLoop.enter h with headerLineState := h.headerLineState } 0
    cases hs : h.headerLineState <;> simp [hs, HeaderLineState.MidLine] at hst <;> trivial
  obtain ⟨p, hp, -, htracked⟩ := @Builds.invariant before h l
    (fun p l => l.i = p.length ∧ l.Tracked p.length) hb ⟨rfl, hstart⟩ (by
      rintro p c t l l' - - ⟨hi, ht⟩ hs
      rw [show (p ++ [c]).length = p.length + 1 by simp]
      exact ⟨by rw [headerStep_ok_i hs, hi], ht.step hi hs⟩)
  have hlen := hp.length_le
  unfold HeaderLoop.Tracked at htracked
  rw [hcr] at htracked
  obtain ⟨h1, h2, h3, h4, h5⟩ := htracked
  exact ⟨h1, h2, by omega, h4, by omega⟩

/-- **In a call that starts inside a line the first range has no beginning.** -/
theorem Builds.astray {before : UInt8} {h : Http} {l : HeaderLoop} (hb : Builds before h l)
    (hst : h.headerLineState.MidLine) :
    ∃ l', Builds before h l' ∧ ¬ l'.InRange h.readBuffer.length := by
  obtain ⟨l', hb', hkey⟩ : ∃ l', Builds before h l' ∧ l'.keyStart = -1 := by
    obtain ⟨p, -, hastray | hfirst⟩ := @Builds.invariant before h l
      (fun _ l => l.Astray ∨ ∃ l', Builds before h l' ∧ l'.keyStart = -1) hb
      (Or.inl ⟨hst, rfl⟩) (by
        rintro p c t l l' hbuf hl (hastray | hfirst) hs
        · rcases hastray.step hs with hastray' | ⟨hcr, rfl⟩
          · exact Or.inl hastray'
          · exact Or.inr ⟨l, ⟨p, t, hbuf, hl, hcr⟩, hastray.keyStart⟩
        · exact Or.inr hfirst)
    · exact ⟨l, hb, hastray.keyStart⟩
    · exact hfirst
  refine ⟨l', hb', ?_⟩
  intro hrange
  have := hrange.keyStart
  omega

/-! ## Where a line ends -/

/-- Two phases that go the same way: they differ in the parts of the line that were read. -/
inductive Phase.Alike : Phase → Phase → Prop where
  | start : Alike .start .start
  | key (k k' : Bytes) : Alike (.key k) (.key k')
  | colon (k k' : Bytes) : Alike (.colon k) (.colon k')
  | spaces (k k' : Bytes) : Alike (.spaces k) (.spaces k')
  | value (k k' : Bytes) {v v' : Bytes} : v.length = v'.length → Alike (.value k v) (.value k' v')
  | cr (k k' v v' : Bytes) : Alike (.cr k v) (.cr k' v')
  | lf : Alike .lf .lf
  | endCr : Alike .endCr .endCr
  | endLf : Alike .endLf .endLf
  | ended : Alike .ended .ended

/-- What was read of the line has no say in what is read next. -/
theorem Phase.Alike.step {s t : Scan} (h : s.phase.Alike t.phase) (c : UInt8) :
    (scanStep s c = none ∧ scanStep t c = none) ∨
      ∃ s' t', scanStep s c = some s' ∧ scanStep t c = some t' ∧ s'.phase.Alike t'.phase := by
  obtain ⟨phase, kv, kept⟩ := s
  obtain ⟨phase', kv', kept'⟩ := t
  dsimp only at h
  cases h <;> dsimp only [scanStep, Scan.go]
  case value k k' v v' hlen =>
    rw [hlen]
    split_ifs
    · exact Or.inr ⟨_, _, rfl, rfl, .cr ..⟩
    · exact Or.inl ⟨rfl, rfl⟩
    · exact Or.inr ⟨_, _, rfl, rfl, .value _ _ (by simp [hlen])⟩
  all_goals try split_ifs
  all_goals first
    | exact Or.inl ⟨rfl, rfl⟩
    | exact Or.inr ⟨_, _, rfl, rfl, .value _ _ rfl⟩
    | exact Or.inr ⟨_, _, rfl, rfl, by constructor⟩

theorem Phase.Alike.state {p p' : Phase} (h : p.Alike p') : p.state = p'.state := by
  cases h <;> rfl

theorem Phase.Alike.halted {s t : Scan} (h : s.phase.Alike t.phase) :
    headerScanner.halted s = headerScanner.halted t := by
  obtain ⟨phase, kv, kept⟩ := s
  obtain ⟨phase', kv', kept'⟩ := t
  cases h <;> rfl

/-- The scanner behind the opening is where a call goes on in the middle of a line. -/
theorem scan_opening (before : UInt8) {st : HeaderLineState} (hst : st.MidLine) :
    ∃ t, headerScanner.run Scan.init (opening st) = some (t, []) ∧
      (resume before st).Alike t.phase := by
  rcases hst with rfl | rfl | rfl | rfl | rfl
  · exact ⟨_, rfl, .key _ _⟩
  · exact ⟨_, rfl, .colon _ _⟩
  · exact ⟨_, rfl, .spaces _ _⟩
  · exact ⟨_, rfl, .value _ _ rfl⟩
  · exact ⟨_, rfl, .cr ..⟩

/-- **Such a call reads what it would read behind the opening.** -/
theorem scan_resumed (before : UInt8) {h : Http} (hst : h.headerLineState.MidLine) (q : Bytes) :
    (headerScanner.run (Scan.enter before h) q = none ∧
        headerScanner.run Scan.init (opening h.headerLineState ++ q) = none) ∨
      ∃ s t rest, headerScanner.run (Scan.enter before h) q = some (s, rest) ∧
        headerScanner.run Scan.init (opening h.headerLineState ++ q) = some (t, rest) ∧
        s.phase.Alike t.phase := by
  obtain ⟨t, hrun, halike⟩ := scan_opening before hst
  rw [headerScanner.run_append_of_run hrun]
  exact headerScanner.run_simulates (fun _ _ h => h.halted) (fun _ _ c h _ => h.step c) halike q

/-- A call builds a key and a value where the scanner stores them. -/
theorem exists_builds_iff (before : UInt8) (h : Http) : (∃ l, Builds before h l) ↔
    ∃ p t s, h.readBuffer = p ++ LF :: t ∧
      headerScanner.run (Scan.enter before h) p = some (s, []) ∧ s.phase.state = .hCr := by
  constructor
  · rintro ⟨l, p, t, hbuf, hl, hcr⟩
    rcases headerLoop_agree (LF :: t) p [] _ _ hbuf (agree_enter before h) with
      ⟨-, l', hl'⟩ | ⟨s, rest, l', q, hr, hl', -, hagree⟩
    · rw [hl] at hl'
      simp at hl'
    · obtain rfl : l = l' := Except.ok.inj (hl.symm.trans hl')
      have hs : s.phase.state = .hCr := hagree.state.symm.trans hcr
      rcases headerScanner.run_rest hr with rfl | hended
      · exact ⟨p, t, s, hbuf, hr, hs⟩
      · rw [headerScanner_halted.mp hended] at hs
        simp [Phase.state] at hs
  · rintro ⟨p, t, s, hbuf, hr, hs⟩
    rcases headerLoop_agree (LF :: t) p [] _ _ hbuf (agree_enter before h) with
      ⟨hn, -⟩ | ⟨s', rest, l, q, hr', hl, -, hagree⟩
    · rw [hr] at hn
      simp at hn
    · rw [hr, Option.some.injEq, Prod.mk.injEq] at hr'
      exact ⟨l, p, t, hbuf, hl, hagree.state.trans (hr'.1 ▸ hs)⟩

/-- Only the line feed at its end takes the scanner behind a line. -/
theorem scanStep_lf {s s' : Scan} {c : UInt8} (hs : scanStep s c = some s')
    (hp : s'.phase = .lf) : s.phase.state = .hCr := by
  obtain ⟨phase, kv, kept⟩ := s
  cases phase with
  | cr k v => rfl
  | _ =>
    simp only [scanStep, Scan.go] at hs
    try split_ifs at hs
    all_goals cases hs <;> simp at hp

theorem opening_no_lf (st : HeaderLineState) : LF ∉ opening st := by
  cases st <;> decide

theorem opening_head {st : HeaderLineState} (hst : st.MidLine) :
    ∃ t, opening st = 65 :: t := by
  rcases hst with rfl | rfl | rfl | rfl | rfl <;> exact ⟨_, rfl⟩

/-- Behind an opening there are no line breaks in front of the first line. -/
theorem HeaderLines.breaks_eq_nil {g : HeaderLines} {st : HeaderLineState} (hst : st.MidLine)
    {p w : Bytes} (h : opening st ++ p = g.bytes ++ w) : g.breaks = [] := by
  obtain ⟨u, hu⟩ := opening_head hst
  cases hb : g.breaks with
  | nil => rfl
  | cons c t =>
    rw [hu, HeaderLines.bytes, hb, List.cons_append, List.cons_append, List.cons_append,
      List.cons.injEq] at h
    have hblank := g.blank c (by rw [hb]; exact List.mem_cons_self)
    rw [← h.1] at hblank
    exact absurd hblank (by decide)

/-- The bytes behind the opening of a line, up to the line feed at its end. -/
theorem endsLine_split {st : HeaderLineState} {l : HeaderLine} {buf u : Bytes}
    (h : l.bytes ++ u = opening st ++ buf) :
    ∃ q, l.bytes = opening st ++ (q ++ [LF]) ∧ buf = q ++ LF :: u := by
  have hline : l.bytes = l.key ++ ([COLON, SPACE] ++ (l.value ++ [CR])) ++ [LF] := by
    simp [HeaderLine.bytes]
  rw [hline, List.append_assoc] at h
  rw [hline]
  rcases List.append_eq_append_iff.mp h with ⟨v, hv, hu⟩ | ⟨q, hq, hbuf⟩
  · -- the line would end inside the opening
    cases v with
    | nil =>
      rw [List.append_nil] at hv
      exact ⟨[], by rw [hv, List.nil_append], hu.symm⟩
    | cons c v =>
      have hc : LF = c := (List.cons.inj hu).1
      exact absurd (by rw [hv, hc]; simp) (opening_no_lf st)
  · exact ⟨q, by rw [hq, List.append_assoc], hbuf⟩

/-- **A call that starts inside a line builds a key exactly when the line ends.** -/
theorem exists_builds_iff_endsLine (before : UInt8) {h : Http} (hst : h.headerLineState.MidLine) :
    (∃ l, Builds before h l) ↔
      ∃ l : HeaderLine, l.bytes <+: opening h.headerLineState ++ h.readBuffer := by
  rw [exists_builds_iff]
  constructor
  · rintro ⟨p, t, s, hbuf, hr, hs⟩
    rcases scan_resumed before hst p with ⟨hn, -⟩ | ⟨s₁, s₂, rest, hr₁, hr₂, halike⟩
    · rw [hr] at hn
      simp at hn
    · rw [hr, Option.some.injEq, Prod.mk.injEq] at hr₁
      obtain ⟨rfl, rfl⟩ := hr₁
      obtain ⟨w, hw, hspells⟩ := scan_spells hr₂
      rw [List.append_nil] at hw
      obtain ⟨phase, kv, kept⟩ := s₂
      rw [halike.state] at hs
      cases phase <;> simp only [Phase.state, reduceCtorEq] at hs
      case cr k v =>
      obtain ⟨g, -, hk, hv, rfl⟩ := hspells
      have hbreaks := HeaderLines.breaks_eq_nil hst hw
      rw [hbuf]
      cases hlines : g.lines with
      | nil =>
        refine ⟨⟨k, v, hk.isKey, hv⟩, t, ?_⟩
        have hbytes : g.bytes = [] := by simp [HeaderLines.bytes, hbreaks, hlines]
        rw [show p ++ LF :: t = p ++ ([LF] ++ t) from rfl, ← List.append_assoc, hw, hbytes]
        simp [HeaderLine.bytes]
      | cons l ls =>
        have hbytes : g.bytes = l.bytes ++ ls.flatMap HeaderLine.bytes := by
          simp [HeaderLines.bytes, hbreaks, hlines]
        refine ⟨l, ?_⟩
        rw [← List.append_assoc, hw, hbytes, List.append_assoc, List.append_assoc]
        exact List.prefix_append ..
  · rintro ⟨l, u, hu⟩
    obtain ⟨q, hline, hbuf⟩ := endsLine_split hu
    have hhead : l.key.head? ≠ some LF := by
      obtain ⟨v, hv⟩ := opening_head hst
      rw [hv, List.cons_append] at hline
      cases hk : l.key with
      | nil => exact (hk ▸ l.isKey : IsKey []).elim
      | cons c t =>
        rw [HeaderLine.bytes, hk, List.cons_append, List.cons.injEq] at hline
        simp [hline.1, LF]
    have hrun : headerScanner.run Scan.init (opening h.headerLineState ++ (q ++ [LF])) =
        some (⟨.lf, HeaderMap.empty.set l.key l.value, [LF]⟩, []) := by
      rw [← hline, ← List.append_nil l.bytes]
      exact scan_first_line HeaderMap.empty [] [] l hhead
    rcases scan_resumed before hst (q ++ [LF]) with ⟨-, hn⟩ | ⟨s, t, rest, hr, ht, halike⟩
    · rw [hrun] at hn
      simp at hn
    · rw [hrun, Option.some.injEq, Prod.mk.injEq] at ht
      obtain ⟨rfl, rfl⟩ := ht
      obtain ⟨s', hs', hlast⟩ := headerScanner.run_concat hr
      have hphase : s.phase = .lf := by
        obtain ⟨phase, kv, kept⟩ := s
        cases halike
        rfl
      exact ⟨q, u, s', hbuf, hs', scanStep_lf hlast hphase⟩

/--
**When the ranges of one call are in range.** If and only if the call does not start inside a line
that ends in its buffer.
-/
theorem builds_inRange_iff (before : UInt8) (h : Http) :
    (∀ l, Builds before h l → l.InRange h.readBuffer.length) ↔ ¬ h.EndsLine := by
  constructor
  · rintro hrange ⟨hst, hends⟩
    obtain ⟨l, hb⟩ := (exists_builds_iff_endsLine before hst).mpr hends
    obtain ⟨l', hb', hout⟩ := hb.astray hst
    exact hout (hrange l' hb')
  · intro hends l hb
    by_cases hst : h.headerLineState.MidLine
    · exact absurd ⟨hst, (exists_builds_iff_endsLine before hst).mp ⟨l, hb⟩⟩ hends
    · exact hb.inRange hst

/--
**When the substrings of a header are in range.** In every sequence of calls on one request, if and
only if no call starts inside a line that ends in its buffer.
-/
theorem header_ranges (before : Nat → UInt8) (h : Http) (piece : Bytes) (pieces : List Bytes) :
    (∀ call ∈ parseCalls before 0 (h.atHeader piece) pieces, ∀ l, Builds call.1 call.2 l →
      l.InRange call.2.readBuffer.length) ↔
    ∀ call ∈ parseCalls before 0 (h.atHeader piece) pieces, ¬ call.2.EndsLine := by
  constructor
  · intro hrange call hcall
    exact (builds_inRange_iff call.1 call.2).mp (hrange call hcall)
  · intro hends call hcall
    exact (builds_inRange_iff call.1 call.2).mpr (hends call hcall)

/-- A line cut behind its value: the next call builds key and value from in front of its buffer. -/
theorem header_ranges_cut_line :
    ∃ call ∈ parseCalls (fun _ => 0) 0 ((Http.construct true).atHeader (text "A: b"))
        [text "\r\n"], ∃ l, Builds call.1 call.2 l ∧
      l.keyStart = -1 ∧ l.keyEnd = -1 ∧ l.valueStart = -1 ∧
      ¬ l.InRange call.2.readBuffer.length := by
  refine ⟨_, List.mem_cons_of_mem _ List.mem_cons_self, _,
    ⟨text "A: b\r", [], rfl, rfl, rfl⟩, rfl, rfl, rfl, ?_⟩
  intro hrange
  exact absurd hrange.keyStart (by decide)

end FlashWeb
