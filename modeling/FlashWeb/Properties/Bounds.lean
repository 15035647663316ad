import FlashWeb.Http.Positions

/-!
# No position out of range

On a buffer of fewer than `2^31` bytes the parsers that keep positions in `int` do what the parsers
with exact positions do, and meet no fault: `substr` never throws, and `header_line.size() - pos`
does not wrap. A search from inside a string finds a position inside it or nothing (`find_bounds`),
and the indices of `ParseHeaders` do not run ahead of `i` (`HeaderLoop.Fits`).
-/

namespace FlashWeb

open Lib

/-! ## Conversions of values that fit -/

theorem toInt_of_fits {i : Int} (hlo : -2 ^ 31 ≤ i) (hhi : i < 2 ^ 31) : toInt i = i :=
  Words.signed_of_fits (by omega) (by omega)

/-- `pos + 1` does not overflow. -/
theorem toInt_succ {n : Nat} (h : n + 1 < 2 ^ 31) : toInt ((n : Int) + 1) = (n + 1 : Nat) :=
  toInt_of_fits (by omega) (by omega)

theorem toSize_of_lt {n : Nat} (h : n < 2 ^ 64) : toSize n = n :=
  Words.unsigned_of_fits h

/-- `npos` becomes `-1`. -/
theorem toInt_npos : toInt npos = -1 := by
  have hmax : Words.signed 32 (2 ^ 64 - 1) = -1 := Words.signed_max (by omega) (by omega)
  exact hmax

/-- **What `find` returns is kept in an `int`: `-1`, or a position inside the string.** -/
theorem toInt_findPos {s : Bytes} (pat : Bytes) (pos : Nat) (hp : pat ≠ [])
    (hs : s.length < 2 ^ 31) :
    (find pat s pos = none ∧ toInt (findPos pat s pos) = -1) ∨
      ∃ n, find pat s pos = some n ∧ toInt (findPos pat s pos) = n ∧ pos ≤ n ∧ n < s.length := by
  cases hf : find pat s pos with
  | none =>
    rw [findPos, hf]
    exact Or.inl ⟨rfl, toInt_npos⟩
  | some n =>
    obtain ⟨hle, hlt⟩ := find_bounds hp hf
    rw [findPos, hf, Option.getD_some]
    exact Or.inr ⟨n, rfl, toInt_of_fits (by omega) (by omega), hle, hlt⟩

theorem substrAt_of_le {s : Bytes} {pos : Nat} (h : pos ≤ s.length) (len : Nat) :
    substrAt s pos len = .ok (substr s pos len) := if_pos h

theorem sizeMinus_of_le {s : Bytes} {pos : Nat} (h : pos ≤ s.length) :
    sizeMinus s pos = .ok (s.length - pos) := if_pos h

/-- `s.substr(pos)` -/
theorem substr_npos {s : Bytes} (hs : s.length < 2 ^ 31) (pos : Nat) :
    substr s pos npos = s.drop pos := by
  refine List.take_of_length_le ?_
  rw [List.length_drop, npos]
  omega

theorem ok_bind {ε α β : Type} (a : α) (f : α → Except ε β) : (Except.ok a >>= f) = f a := rfl

/-! ## ParseURI -/

theorem parseVersionInt_eq {headerLine : Bytes} (hs : headerLine.length < 2 ^ 31) {pos : Nat}
    (hpos : pos < 2 ^ 31) (h : Http) :
    parseVersionInt headerLine pos h = .ok (parseVersion headerLine pos h) := by
  unfold parseVersionInt parseVersion
  rw [toSize_of_lt (by omega)]
  rcases toInt_findPos (text "/") pos (by decide) hs with ⟨hf, hint⟩ | ⟨n, hf, hint, -, hlt⟩
  · rw [hf, hint]
    rfl
  · rw [hf, hint]
    dsimp only
    rw [if_neg (by omega), toSize_of_lt (by omega), sizeMinus_of_le (by omega), ok_bind,
      toInt_succ (by omega), toSize_of_lt (by omega), substrAt_of_le hlt, ok_bind]
    split
    · rfl
    · split
      · rfl
      · split <;> rfl

theorem parsePathInt_eq {headerLine : Bytes} (hs : headerLine.length < 2 ^ 31) {pos spacePos : Nat}
    (hle : pos ≤ spacePos) (hlt : spacePos < headerLine.length) :
    parsePathInt headerLine pos spacePos = .ok (parsePath headerLine pos spacePos) := by
  have hgap : toInt ((spacePos : Int) - pos) = (spacePos - pos : Nat) := by
    rw [toInt_of_fits (by omega) (by omega), Int.ofNat_sub hle]
  unfold parsePathInt parsePath
  rw [hgap]
  by_cases hone : spacePos - pos > 1
  · have hlen : toInt (((spacePos - pos : Nat) : Int) - 1) = (spacePos - pos - 1 : Nat) := by
      rw [toInt_of_fits (by omega) (by omega)]
      omega
    rw [if_pos (by omega), if_pos hone, toInt_succ (by omega), hlen, toSize_of_lt (by omega),
      toSize_of_lt (by omega), substrAt_of_le (by omega), ok_bind]
    have hpath : (substr headerLine (pos + 1) (spacePos - pos - 1)).length < 2 ^ 31 := by
      rw [substr, List.length_take, List.length_drop]
      omega
    dsimp only
    rcases toInt_findPos (text "?") 0 (by decide) hpath with ⟨hf, hint⟩ | ⟨n, hf, hint, -, hn⟩
    · rw [hf, hint]
      rfl
    · rw [hf, hint, if_pos (by omega), toSize_of_lt (by omega)]
      exact substrAt_of_le (Nat.zero_le _) n
  · rw [if_neg (by omega), if_neg hone]

theorem parseTargetInt_eq {headerLine : Bytes} (hs : headerLine.length < 2 ^ 31) {pos : Nat}
    (hpos : pos < 2 ^ 31) (h : Http) :
    parseTargetInt headerLine pos h = .ok (parseTarget headerLine pos h) := by
  unfold parseTargetInt parseTarget
  rw [toSize_of_lt (by omega)]
  rcases toInt_findPos (text "/") pos (by decide) hs with ⟨hf, hint⟩ | ⟨n, hf, hint, -, hlt⟩
  · rw [hf, hint]
    rfl
  · rw [hf, hint]
    dsimp only
    rw [if_neg (by omega), toSize_of_lt (by omega)]
    rcases toInt_findPos (text " ") n (by decide) hs with
      ⟨hspace, hint'⟩ | ⟨m, hspace, hint', hle, hlt'⟩
    · rw [hspace, hint']
      rfl
    · rw [hspace, hint', if_neg (by omega), parsePathInt_eq hs hle hlt', ok_bind]
      exact parseVersionInt_eq hs (by omega) _

theorem parseHeaderLineInt_eq {headerLine : Bytes} (hs : headerLine.length < 2 ^ 31) (h : Http) :
    parseHeaderLineInt headerLine h = .ok (parseHeaderLine headerLine h) := by
  unfold parseHeaderLineInt parseHeaderLine
  rcases toInt_findPos (text "GET") 0 (by decide) hs with ⟨hget, hint⟩ | ⟨n, hget, hint, -, hlt⟩
  · rw [hget, hint]
    dsimp only
    rw [if_neg (by omega)]
    rcases toInt_findPos (text "POST") 0 (by decide) hs with
      ⟨hpost, hint'⟩ | ⟨n, hpost, hint', -, hlt⟩
    · rw [hpost, hint', if_neg (by omega)]
    · rw [hpost, hint', if_pos (by omega)]
      exact parseTargetInt_eq hs (by omega) _
  · rw [hget, hint]
    dsimp only
    rw [if_pos (by omega)]
    exact parseTargetInt_eq hs (by omega) _

/-- **`ParseURI` meets no fault.** -/
theorem parseUriInt_eq {h : Http} (hb : h.readBuffer.length < 2 ^ 31) :
    parseUriInt h = .ok (parseUri h) := by
  unfold parseUriInt parseUri
  rcases toInt_findPos [lineDelimiter] 0 (by simp) hb with ⟨hf, hint⟩ | ⟨n, hf, hint, -, hlt⟩
  · rw [hf, hint]
    rfl
  · have hline : (h.readBuffer.take n).length < 2 ^ 31 := by
      rw [List.length_take]
      omega
    rw [hf, hint]
    dsimp only
    rw [if_neg (by omega), toInt_succ (by omega), toSize_of_lt (by omega), toSize_of_lt (by omega),
      substrAt_of_le (Nat.zero_le _), ok_bind]
    split
    · rw [substrAt_of_le hlt, substr_npos hb, ok_bind]
      exact parseHeaderLineInt_eq hline _
    · rw [ok_bind]
      exact parseHeaderLineInt_eq hline _

/-! ## ParseHeaders -/

/-- The locals of a loop with exact positions. -/
def HeaderLoop.stored (l : HeaderLoop) : HeaderLoopInt where
  headerLineState := l.headerLineState
  headerKv := l.headerKv
  keyStart := l.keyStart
  keyEnd := l.keyEnd
  valueStart := l.valueStart
  valueEnd := l.valueEnd
  nowReadLineBegin := l.nowReadLineBegin
  notFinish := l.notFinish
  i := l.i

/-- No index is ahead of `i`. -/
structure HeaderLoop.Fits (l : HeaderLoop) : Prop where
  keyStart : -1 ≤ l.keyStart ∧ l.keyStart ≤ l.i
  valueStart : -1 ≤ l.valueStart ∧ l.valueStart ≤ l.i
  nowReadLineBegin : l.nowReadLineBegin ≤ l.i

theorem HeaderLoop.Fits.step {before : UInt8} {str : Bytes} {c : UInt8} {l l' : HeaderLoop}
    (h : l.Fits) (hs : headerStep before str c l = .ok l') :
    HeaderLoop.Fits { l' with i := l'.i + 1 } := by
  obtain ⟨hkey, hvalue, hbegin⟩ := h
  unfold headerStep at hs
  cases hst : l.headerLineState <;> simp only [hst] at hs <;> try split_ifs at hs
  all_goals
    cases hs
    constructor <;> dsimp only <;> omega

/-- The unsigned difference of two positions, the second of which may be `-1`. -/
theorem toSize_sub {i : Nat} {v : Int} (hi : i < 2 ^ 31) (hlo : -1 ≤ v) (hhi : v ≤ i) :
    (toSize ((i : Int) - toSize v) : Int) = i - v := by
  obtain ⟨n, hn⟩ : ∃ n : Nat, (i : Int) - v = n := ⟨(i - v).toNat, by omega⟩
  have hsub : toSize ((i : Int) - toSize v) = toSize ((i : Int) - v) :=
    Words.unsigned_sub_unsigned 64 i v
  rw [hsub, hn, toSize_of_lt (by omega)]

/-- **One step with positions in `int` is one step with exact positions.** -/
theorem headerStepInt_stored {before : UInt8} {str : Bytes} {c : UInt8} {l : HeaderLoop}
    (h : l.Fits) (hi : l.i + 1 < 2 ^ 31) :
    headerStepInt before str c l.stored =
      match headerStep before str c l with
      | .error l' => .error l'.stored
      | .ok l' => .ok l'.stored := by
  obtain ⟨hkey, hvalue, -⟩ := h
  have hint : toInt l.i = l.i := toInt_of_fits (by omega) (by omega)
  have hkeyLen : toInt (l.i - l.keyStart) = l.i - l.keyStart :=
    toInt_of_fits (by omega) (by omega)
  have hvalueLen : toInt (l.i - l.valueStart) = l.i - l.valueStart :=
    toInt_of_fits (by omega) (by omega)
  have hsub := toSize_sub (by omega) hvalue.1 hvalue.2
  unfold headerStepInt headerStep
  cases hst : l.headerLineState <;>
    simp only [HeaderLoop.stored, hst, hint, hkeyLen, hvalueLen] <;> try split_ifs
  all_goals
    first
      | rfl
      | omega
      | simp [hst]

/-- **The loop with positions in `int` is the loop with exact positions.** -/
theorem headerLoopInt_stored {before : UInt8} {str : Bytes} : ∀ {xs : Bytes} {l : HeaderLoop},
    l.Fits → l.i + xs.length < 2 ^ 31 →
    headerLoopInt before str xs l.stored =
      match headerLoop before str xs l with
      | .error l' => .error l'.stored
      | .ok l' => .ok l'.stored
  | [], l, _, _ => rfl
  | c :: xs, l, h, hi => by
    rw [List.length_cons] at hi
    rw [headerLoopInt, headerLoop, show l.stored.notFinish = l.notFinish from rfl]
    by_cases hn : l.notFinish
    · rw [if_pos hn, if_pos hn, headerStepInt_stored h (by omega)]
      cases hs : headerStep before str c l with
      | error l' => rfl
      | ok l' =>
        have hsame := headerStep_ok_i hs
        exact headerLoopInt_stored (h.step hs) (by dsimp only; omega)
    · rw [if_neg hn, if_neg hn]

/-- What the loop leaves is in range of the bytes it was given. -/
theorem headerLoop_fits {before : UInt8} {str : Bytes} : ∀ {xs : Bytes} {l l' : HeaderLoop},
    l.Fits → headerLoop before str xs l = .ok l' → l'.Fits ∧ l'.i ≤ l.i + xs.length
  | [], l, l', h, hl => by
    obtain rfl : l = l' := Except.ok.inj hl
    exact ⟨h, Nat.le_add_right _ _⟩
  | c :: xs, l, l', h, hl => by
    rw [headerLoop] at hl
    split at hl
    · cases hs : headerStep before str c l with
      | error e =>
        rw [hs] at hl
        simp at hl
      | ok l₁ =>
        rw [hs] at hl
        obtain ⟨hfits, hi⟩ := headerLoop_fits (h.step hs) hl
        have hsame := headerStep_ok_i hs
        dsimp only at hi
        rw [List.length_cons]
        exact ⟨hfits, by omega⟩
    · obtain rfl : l = l' := Except.ok.inj hl
      exact ⟨h, Nat.le_add_right _ _⟩

theorem HeaderLoop.enter_fits (h : Http) : (HeaderLoop.enter h).Fits where
  keyStart := by simp [HeaderLoop.enter]
  valueStart := by simp [HeaderLoop.enter]
  nowReadLineBegin := Nat.le_refl _

/-- **`ParseHeaders` meets no fault.** -/
theorem parseHeadersInt_eq (before : UInt8) {h : Http} (hb : h.readBuffer.length < 2 ^ 31) :
    parseHeadersInt before h = .ok (parseHeaders before h) := by
  have hloop := @headerLoopInt_stored before h.readBuffer h.readBuffer (HeaderLoop.enter h)
    (HeaderLoop.enter_fits h) (by simpa [HeaderLoop.enter] using hb)
  unfold parseHeadersInt parseHeaders
  rw [show HeaderLoopInt.enter h = (HeaderLoop.enter h).stored from rfl, hloop]
  cases hl : headerLoop before h.readBuffer h.readBuffer (HeaderLoop.enter h) with
  | error l => rfl
  | ok l =>
    obtain ⟨⟨-, -, hbegin⟩, hi⟩ := headerLoop_fits (HeaderLoop.enter_fits h) hl
    have hsize : l.i ≤ h.readBuffer.length := by simpa [HeaderLoop.enter] using hi
    dsimp only [HeaderLoop.stored]
    split
    · rw [substrAt_of_le hsize, substr_npos hb, ok_bind]
    · rw [toSize_of_lt (by omega), substrAt_of_le (by omega), substr_npos hb, ok_bind]

/-! ## Both parsers -/

/--
**The parsers never throw.** On every buffer shorter than `2^31` bytes, and from every
`header_line_state`, each `substr` starts inside its string or at its end and
`header_line.size() - pos` does not wrap; the results are those of the parsers with exact positions.
-/
theorem parsers_in_range (before : UInt8) (h : Http) (hb : h.readBuffer.length < 2 ^ 31) :
    parseUriInt h = .ok (parseUri h) ∧ parseHeadersInt before h = .ok (parseHeaders before h) :=
  ⟨parseUriInt_eq hb, parseHeadersInt_eq before hb⟩

/-- A request line with a query, all of which `ParseURI` takes. -/
theorem parsers_in_range_query :
    let h := { Http.construct true with readBuffer := text "GET /a?b HTTP/1.1r" }
    parseUriInt h = .ok (parseUri h) ∧ parseHeadersInt 0 h = .ok (parseHeaders 0 h) :=
  parsers_in_range 0 _ (by decide)

end FlashWeb
