import FlashWeb.Properties.HeaderGrammar

/-!
# A request without headers

`H_START` skips line breaks, and the blank line of a request without headers is nothing else. So
the end of such a request is passed over, and what comes behind it is read as its header: a request
ends only behind a header line that was stored.
-/

namespace FlashWeb

open Lib

/-- What is left of a request without headers behind the CR of its request line, and `rest`. -/
def noHeaders (rest : Bytes) : Bytes := [LF, CR, LF] ++ rest

/-- The request ends at its blank line, and `rest` is left for the next one. -/
structure HeaderlessEnds (before : UInt8) (h : Http) (rest : Bytes) : Prop where
  success : (parseHeaders before (h.atHeader (noHeaders rest))).1 = .parseHeaderSuccess
  headerKv : (parseHeaders before (h.atHeader (noHeaders rest))).2.headerKv = HeaderMap.empty
  readBuffer : (parseHeaders before (h.atHeader (noHeaders rest))).2.readBuffer = rest

/-! ## Line breaks in front -/

/-- Two scans in the same place, whatever bytes they keep. -/
def Scan.Beside (s t : Scan) : Prop := s.phase = t.phase ∧ s.kv = t.kv

/-- The bytes that are kept have no say in what is read. -/
theorem Scan.Beside.step {s t : Scan} (h : s.Beside t) (c : UInt8) :
    (scanStep s c = none ∧ scanStep t c = none) ∨
      ∃ s' t', scanStep s c = some s' ∧ scanStep t c = some t' ∧ s'.Beside t' := by
  obtain ⟨phase, kv, kept⟩ := s
  obtain ⟨phase', kv', kept'⟩ := t
  obtain ⟨rfl, rfl⟩ : phase = phase' ∧ kv = kv' := h
  cases phase <;> dsimp only [scanStep, Scan.go] <;> try split_ifs
  all_goals first
    | exact Or.inl ⟨rfl, rfl⟩
    | exact Or.inr ⟨_, _, rfl, rfl, rfl, rfl⟩

/-- **Line breaks in front of a header are skipped.** -/
theorem scan_skip {p : Bytes} (hp : Blank p) (s : Bytes) :
    (headerScanner.run Scan.init (p ++ s) = none ∧ headerScanner.run Scan.init s = none) ∨
      ∃ s₁ s₂ rest, headerScanner.run Scan.init (p ++ s) = some (s₁, rest) ∧
        headerScanner.run Scan.init s = some (s₂, rest) ∧ s₁.Beside s₂ := by
  rw [Scan.init, headerScanner.run_append_of_run (scan_blank p hp [])]
  refine headerScanner.run_simulates ?_ (fun s t c h _ => h.step c) ⟨rfl, rfl⟩ s
  intro s t h
  unfold headerScanner
  dsimp only
  rw [h.1]

/-- The call gives what it gives without the line breaks. -/
theorem parseHeaders_skip (before : UInt8) (h : Http) {p : Bytes} (hp : Blank p) (s : Bytes) :
    (parseHeaders before (h.atHeader (p ++ s))).1 = (parseHeaders before (h.atHeader s)).1 ∧
      ((parseHeaders before (h.atHeader s)).1 = .parseHeaderSuccess →
        parseHeaders before (h.atHeader (p ++ s)) = parseHeaders before (h.atHeader s)) := by
  rcases scan_skip hp s with ⟨hn, hn'⟩ | ⟨s₁, s₂, rest, hr, hr', hphase, hkv⟩
  · have he := @parseHeaders_of_refused before (h.atHeader (p ++ s)) hn
    have he' := @parseHeaders_of_refused before (h.atHeader s) hn'
    exact ⟨he.trans he'.symm, fun hs => by rw [he'] at hs; simp at hs⟩
  · rw [@parseHeaders_of_scan before (h.atHeader (p ++ s)) s₁ rest hr,
      @parseHeaders_of_scan before (h.atHeader s) s₂ rest hr']
    unfold headerResult
    rw [hphase, hkv]
    split
    · exact ⟨rfl, fun _ => rfl⟩
    · exact ⟨rfl, fun hs => by simp at hs⟩

/-! ## What a request ends behind -/

/-- A header stores at least one field. -/
theorem Header.kv_ne_empty (g : Header) : g.kv ≠ HeaderMap.empty := by
  obtain ⟨ls, l, hlast⟩ := (List.eq_nil_or_concat g.lines).resolve_left g.nonempty
  intro hkv
  have hnone := congrFun hkv l.key
  rw [HeaderLines.kv, storeLines_apply, hlast, List.concat_eq_append,
    List.reverse_append] at hnone
  simp [HeaderMap.empty] at hnone

/-- **No request ends without a header line.** -/
theorem parseHeaders_success_kv {before : UInt8} {h : Http} {s : Bytes}
    (hs : (parseHeaders before (h.atHeader s)).1 = .parseHeaderSuccess) :
    (parseHeaders before (h.atHeader s)).2.headerKv ≠ HeaderMap.empty := by
  obtain ⟨p, ⟨t, rfl⟩, g, rfl⟩ := (parseHeaders_grammar before h s).1.mp hs
  intro hkv
  refine g.kv_ne_empty (funext fun key => ?_)
  have hstored := (parseHeaders_grammar before h (g.bytes ++ t)).2.2.2 g ⟨t, rfl⟩ key
  rw [hkv] at hstored
  rw [HeaderLines.kv, storeLines_apply, ← hstored]
  rfl

/--
**A request without headers never ends at its blank line.** Whatever comes behind it, the call gives
what it would give if the request's header began there.
-/
theorem no_headers_never_ends (before : UInt8) (h : Http) (rest : Bytes) :
    ¬ HeaderlessEnds before h rest ∧
      (parseHeaders before (h.atHeader (noHeaders rest))).1 =
        (parseHeaders before (h.atHeader rest)).1 ∧
      ((parseHeaders before (h.atHeader rest)).1 = .parseHeaderSuccess →
        parseHeaders before (h.atHeader (noHeaders rest)) =
          parseHeaders before (h.atHeader rest)) := by
  have hblank : Blank [LF, CR, LF] := by decide
  obtain ⟨hverdict, hresult⟩ := parseHeaders_skip before h hblank rest
  refine ⟨?_, hverdict, hresult⟩
  intro hends
  exact parseHeaders_success_kv hends.success hends.headerKv

/-- With nothing behind it the request waits for more. -/
theorem no_headers_waits :
    (parseHeaders 0 ((Http.construct true).atHeader (noHeaders []))).1 = .parseHeaderAgain ∧
      ¬ HeaderlessEnds 0 (Http.construct true) [] := by
  have hverdict : (parseHeaders 0 ((Http.construct true).atHeader (noHeaders []))).1 =
      .parseHeaderAgain := rfl
  refine ⟨hverdict, ?_⟩
  intro hends
  rw [hends.success] at hverdict
  exact ParseHeaderState.noConfusion hverdict

end FlashWeb
