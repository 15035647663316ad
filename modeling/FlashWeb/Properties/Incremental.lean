import FlashWeb.Properties.HeaderScan

/-!
# A header that arrives in pieces

`ParseHeaders` is called again on every piece of a header, with `header_line_state` and the bytes of
the unfinished line left by the call before. Only a call that stops before the first header line
leaves a state the next call can go on from (`CleanCuts`): then the pieces give what the whole
gives. A cut inside a line loses the key's beginning, a cut after a line reads its line feed again
as the first byte of a key, and a cut inside or after the empty line disturbs where the next request
begins.
-/

namespace FlashWeb

open Lib

/-! ## Calling again with the next piece -/

/-- `ParseHeaders` at the beginning of a header, with `s` in the buffer. -/
def Http.atHeader (h : Http) (s : Bytes) : Http :=
  { h with readBuffer := s, headerLineState := .hStart, headerKv := HeaderMap.empty }

/--
`ParseHeaders` on what is in the buffer, and as long as it returns `PARSE_HEADER_AGAIN` and pieces
are left, on what it left with the next piece behind it. The pieces not delivered are returned too.
`before n` is the byte in front of the buffer at call `n`.
-/
def parsePieces (before : Nat → UInt8) :
    Nat → Http → List Bytes → ParseHeaderState × Http × List Bytes
  | n, h, [] => ((parseHeaders (before n) h).1, (parseHeaders (before n) h).2, [])
  | n, h, piece :: pieces =>
    match parseHeaders (before n) h with
    | (.parseHeaderAgain, h) =>
      parsePieces before (n + 1) { h with readBuffer := h.readBuffer ++ piece } pieces
    | (verdict, h) => (verdict, h, piece :: pieces)

/-- The pieces ended as the whole did: `inc` is what they gave, `one` what one call gave. -/
def Matches (inc : ParseHeaderState × Http × List Bytes) (one : ParseHeaderState × Http) : Prop :=
  inc.1 = one.1 ∧
    (one.1 = .parseHeaderSuccess → inc.2.1.headerKv = one.2.headerKv ∧
      inc.2.1.readBuffer ++ inc.2.2.flatten = one.2.readBuffer)

/-- The pieces give what one call on all of them gives. -/
def SameOutcome (h : Http) (piece : Bytes) (pieces : List Bytes) : Prop :=
  ∀ (before : Nat → UInt8) (b : UInt8),
    Matches (parsePieces before 0 (h.atHeader piece) pieces)
      (parseHeaders b (h.atHeader (piece ++ pieces.flatten)))

/-! ## Cuts that do no harm -/

/-- The scanner at the beginning of a header. -/
def Scan.init : Scan := ⟨.start, HeaderMap.empty, []⟩

/-- Nothing but line breaks: no header line has begun. -/
def Blank (p : Bytes) : Prop := ∀ c ∈ p, c = LF ∨ c = CR

instance (p : Bytes) : Decidable (Blank p) :=
  List.decidableBAll (fun c => c = LF ∨ c = CR) p

/-- The bytes are refused already, or hold the whole header and one byte more. -/
def Settled (p : Bytes) : Prop :=
  ∀ s rest, headerScanner.run Scan.init p = some (s, rest) → s.phase = .ended

/-- The bytes end with the empty line that ends the header. -/
def EndsHeader (p : Bytes) : Prop :=
  ∃ s, headerScanner.run Scan.init p = some (s, []) ∧ s.phase = .endLf

/-- A cut after `p` with `t` to follow. -/
def CleanCut (p t : Bytes) : Prop := Blank p ∨ Settled p ∨ (EndsHeader p ∧ t = [])

/-- Every cut of the pieces is clean; `p` is what was delivered before. -/
def CleanCuts : Bytes → List Bytes → Prop
  | _, [] => True
  | p, q :: qs => CleanCut p (q ++ qs.flatten) ∧ CleanCuts (p ++ q) qs

/-- The bytes contain a whole header. -/
def HeaderComplete (s : Bytes) : Prop :=
  ∃ s' rest, headerScanner.run Scan.init s = some (s', rest) ∧ s'.phase.Done

/-- No line feed follows directly on the line break `CR LF`. -/
def NoBareLf (s : Bytes) : Prop := ¬ [CR, LF, LF] <:+: s

theorem scan_blank : ∀ (p : Bytes), Blank p → ∀ kept,
    headerScanner.run ⟨.start, HeaderMap.empty, kept⟩ p =
      some (⟨.start, HeaderMap.empty, kept ++ p⟩, [])
  | [], _, kept => by simp
  | c :: p, hp, kept => by
    have hc := hp c List.mem_cons_self
    have hstep : headerScanner.step ⟨.start, HeaderMap.empty, kept⟩ c =
        some ⟨.start, HeaderMap.empty, kept ++ [c]⟩ := by
      unfold headerScanner scanStep
      dsimp only
      rw [if_pos hc]
      rfl
    rw [headerScanner.run_cons rfl, hstep, Option.bind_some,
      scan_blank p (fun x hx => hp x (List.mem_cons_of_mem _ hx)), List.append_assoc,
      List.singleton_append]

theorem Settled.append {p : Bytes} (hp : Settled p) (t : Bytes) : Settled (p ++ t) := by
  intro s rest hs
  cases hr : headerScanner.run Scan.init p with
  | none => rw [headerScanner.run_append_none hr] at hs; simp at hs
  | some r =>
    have hended := hp r.1 r.2 hr
    rw [headerScanner.run_append, hr, Option.bind_some,
      if_pos (headerScanner_halted.mpr hended), Option.some.injEq, Prod.mk.injEq] at hs
    rw [← hs.1]
    exact hended

theorem Settled.cleanCuts : ∀ (qs : List Bytes) {p : Bytes}, Settled p → CleanCuts p qs
  | [], _, _ => trivial
  | q :: qs, _, hp => ⟨Or.inr (Or.inl hp), Settled.cleanCuts qs (hp.append q)⟩

theorem EndsHeader.cleanCuts : ∀ (qs : List Bytes) {p : Bytes}, EndsHeader p →
    qs.flatten = [] → CleanCuts p qs
  | [], _, _, _ => trivial
  | q :: qs, p, hp, hq => by
    have hnil := List.append_eq_nil_iff.mp hq
    refine ⟨Or.inr (Or.inr ⟨hp, hq⟩), EndsHeader.cleanCuts qs ?_ hnil.2⟩
    rwa [hnil.1, List.append_nil]

/-! ## Clean cuts lose nothing -/

theorem parseHeaders_atHeader (b : UInt8) (h : Http) (s : Bytes) :
    (headerScanner.run Scan.init s = none ∧
        (parseHeaders b (h.atHeader s)).1 = .parseHeaderError) ∨
      ∃ s' rest, headerScanner.run Scan.init s = some (s', rest) ∧
        parseHeaders b (h.atHeader s) = headerResult (h.atHeader s) s' rest :=
  parseHeaders_eq b (h.atHeader s)

/-- A call that has seen only line breaks changes nothing. -/
theorem parseHeaders_blank (b : UInt8) (h : Http) {p : Bytes} (hp : Blank p) :
    parseHeaders b (h.atHeader p) = (.parseHeaderAgain, h.atHeader p) := by
  rw [parseHeaders_of_scan (h := h.atHeader p) (scan_blank p hp [])]
  rfl

/-- At the beginning of a header the byte in front of the buffer plays no part. -/
theorem parseHeaders_before (b b' : UInt8) (h : Http) (s : Bytes) :
    (parseHeaders b (h.atHeader s)).1 = (parseHeaders b' (h.atHeader s)).1 ∧
      ((parseHeaders b' (h.atHeader s)).1 = .parseHeaderSuccess →
        parseHeaders b (h.atHeader s) = parseHeaders b' (h.atHeader s)) := by
  rcases parseHeaders_atHeader b h s with ⟨hr, he⟩ | ⟨s', rest, hr, he⟩
  · have he' := @parseHeaders_of_refused b' (h.atHeader s) hr
    exact ⟨by rw [he, he'], fun h => by rw [he'] at h; simp at h⟩
  · rw [he, @parseHeaders_of_scan b' (h.atHeader s) s' rest hr]
    exact ⟨rfl, fun _ => rfl⟩

/-- A call that has a verdict is the last one. -/
theorem parsePieces_done {before : Nat → UInt8} {n : Nat} {h : Http}
    (hv : (parseHeaders (before n) h).1 ≠ .parseHeaderAgain) (pieces : List Bytes) :
    parsePieces before n h pieces =
      ((parseHeaders (before n) h).1, (parseHeaders (before n) h).2, pieces) := by
  cases pieces with
  | nil => rfl
  | cons q qs =>
    rw [parsePieces]
    cases hp : parseHeaders (before n) h with
    | mk verdict h' =>
      rw [hp] at hv
      cases verdict with
      | parseHeaderAgain => exact absurd rfl hv
      | parseHeaderSuccess => rfl
      | parseHeaderError => rfl

theorem parsePieces_again {before : Nat → UInt8} {n : Nat} {h h' : Http}
    (hv : parseHeaders (before n) h = (.parseHeaderAgain, h')) (q : Bytes) (qs : List Bytes) :
    parsePieces before n h (q :: qs) =
      parsePieces before (n + 1) { h' with readBuffer := h'.readBuffer ++ q } qs := by
  rw [parsePieces, hv]

theorem parsePieces_blank {before : Nat → UInt8} {n : Nat} {h : Http} {p : Bytes} (hp : Blank p)
    (q : Bytes) (qs : List Bytes) :
    parsePieces before n (h.atHeader p) (q :: qs) =
      parsePieces before (n + 1) (h.atHeader (p ++ q)) qs :=
  parsePieces_again (parseHeaders_blank (before n) h hp) q qs

theorem headerResult_done {h : Http} {s : Scan} {rest : Bytes} (hd : s.phase.Done) :
    headerResult h s rest = (.parseHeaderSuccess,
      { h with readBuffer := rest, headerLineState := .hEndLf, headerKv := s.kv }) :=
  if_pos hd

/-- One call on a whole header. -/
theorem parseHeaders_complete (b : UInt8) (h : Http) {s : Bytes} {s' : Scan} {rest : Bytes}
    (hr : headerScanner.run Scan.init s = some (s', rest)) (hd : s'.phase.Done) :
    parseHeaders b (h.atHeader s) = (.parseHeaderSuccess,
      { h.atHeader s with readBuffer := rest, headerLineState := .hEndLf, headerKv := s'.kv }) := by
  rw [parseHeaders_of_scan (h := h.atHeader s) hr, headerResult_done hd]

/-- **With clean cuts the pieces give what the whole gives.** -/
theorem CleanCuts.same (h : Http) (before : Nat → UInt8) (b : UInt8) : ∀ (pieces : List Bytes)
    (p : Bytes) (n : Nat), CleanCuts p pieces →
    Matches (parsePieces before n (h.atHeader p) pieces)
      (parseHeaders b (h.atHeader (p ++ pieces.flatten)))
  | [], p, n, _ => by
    obtain ⟨h1, h2⟩ := parseHeaders_before (before n) b h p
    simp only [Matches, parsePieces, List.flatten_nil, List.append_nil]
    exact ⟨h1, fun hs => by rw [h2 hs]; exact ⟨rfl, rfl⟩⟩
  | q :: qs, p, n, ⟨hcut, hcuts⟩ => by
    by_cases hblank : Blank p
    · rw [parsePieces_blank hblank, List.flatten_cons, ← List.append_assoc]
      exact CleanCuts.same h before b qs (p ++ q) (n + 1) hcuts
    · have hcut' : Settled p ∨ (EndsHeader p ∧ (q :: qs).flatten = []) := hcut.resolve_left hblank
      rcases parseHeaders_atHeader (before n) h p with ⟨hr, he⟩ | ⟨s, rest, hr, he⟩
      · rw [parsePieces_done (by rw [he]; simp)]
        have he' := @parseHeaders_of_refused b (h.atHeader (p ++ (q :: qs).flatten))
          (headerScanner.run_append_none hr _)
        exact ⟨by rw [he, he'], fun hs => by rw [he'] at hs; simp at hs⟩
      · -- the whole header is in: the scanner stops after it, or nothing more comes
        have hdone : s.phase.Done ∧ headerScanner.run Scan.init (p ++ (q :: qs).flatten) =
            some (s, rest ++ (q :: qs).flatten) := by
          rcases hcut' with hset | ⟨⟨s₁, hr₁, hp₁⟩, hnil⟩
          · have hended := hset s rest hr
            refine ⟨by rw [hended]; trivial, ?_⟩
            rw [headerScanner.run_append, hr, Option.bind_some,
              if_pos (headerScanner_halted.mpr hended)]
          · rw [hr, Option.some.injEq, Prod.mk.injEq] at hr₁
            refine ⟨by rw [hr₁.1, hp₁]; trivial, ?_⟩
            rw [hnil, List.append_nil, List.append_nil, hr]
        rw [headerResult_done hdone.1] at he
        rw [parsePieces_done (by rw [he]; simp), he, parseHeaders_complete b h hdone.2 hdone.1]
        exact ⟨rfl, fun _ => ⟨rfl, rfl⟩⟩

/-! ## Keys that no header contains

After a cut inside a line the key that is stored is empty, or begins with the byte in front of the
buffer; after a cut behind a line it begins with the line feed of that line. With the right byte in
front, none of these is a key of the header as a whole.
-/

/-- The key has no first byte, or one of `F`. -/
def Foreign (F : UInt8 → Prop) (k : Bytes) : Prop := ∀ c ∈ k.head?, F c

/-- The map has a foreign key. -/
def HasForeign (F : UInt8 → Prop) (kv : HeaderMap) : Prop := ∃ k, Foreign F k ∧ (kv k).isSome

/-- The key being read is foreign and stays so. -/
def Phase.Foreign (F : UInt8 → Prop) : Phase → Prop
  | .key k => k ≠ [] ∧ FlashWeb.Foreign F k
  | .colon k => FlashWeb.Foreign F k
  | .spaces k => FlashWeb.Foreign F k
  | .value k _ => FlashWeb.Foreign F k
  | .cr k _ => FlashWeb.Foreign F k
  | _ => False

/-- A foreign key is stored or about to be. -/
def Lost (F : UInt8 → Prop) (s : Scan) : Prop := HasForeign F s.kv ∨ s.phase.Foreign F

/-- The states in which a header line is not finished. -/
def HeaderLineState.MidLine (st : HeaderLineState) : Prop :=
  st = .hKey ∨ st = .hColon ∨ st = .hSpacesAfterColon ∨ st = .hValue ∨ st = .hCr

theorem Foreign.concat {F : UInt8 → Prop} {k : Bytes} (h : Foreign F k) (hk : k ≠ []) (c : UInt8) :
    Foreign F (k ++ [c]) := by
  cases k with
  | nil => exact absurd rfl hk
  | cons d k => exact h

theorem HasForeign.set {F : UInt8 → Prop} {kv : HeaderMap} (h : HasForeign F kv)
    (key value : Bytes) : HasForeign F (kv.set key value) := by
  obtain ⟨k, hk, hs⟩ := h
  exact ⟨k, hk, HeaderMap.isSome_set key value hs⟩

theorem Lost.step {F : UInt8 → Prop} {s s' : Scan} {c : UInt8} (h : Lost F s)
    (hs : scanStep s c = some s') : Lost F s' := by
  obtain ⟨phase, kv, kept⟩ := s
  rcases h with h | h
  · -- a foreign key that is stored stays, since nothing is ever removed
    refine Or.inl ?_
    have hkv : s'.kv = kv ∨ ∃ k v, s'.kv = kv.set k v := by
      cases phase <;> simp only [scanStep, Scan.go] at hs <;> grind
    rcases hkv with hkv | ⟨k, v, hkv⟩ <;> rw [hkv]
    · exact h
    · exact h.set k v
  · -- one that is being read is read on, or stored at the end of its line
    cases phase with
    | key k =>
      simp only [scanStep] at hs
      split at hs
      · rw [← Option.some.inj hs]
        exact Or.inr h.2
      · split at hs
        · simp at hs
        · rw [← Option.some.inj hs]
          exact Or.inr ⟨by simp, h.2.concat h.1 c⟩
    | colon k =>
      simp only [scanStep] at hs
      split at hs
      · rw [← Option.some.inj hs]
        exact Or.inr h
      · simp at hs
    | spaces k =>
      rw [← Option.some.inj hs]
      exact Or.inr h
    | value k v =>
      simp only [scanStep] at hs
      split at hs
      · rw [← Option.some.inj hs]
        exact Or.inr h
      · split at hs
        · simp at hs
        · rw [← Option.some.inj hs]
          exact Or.inr h
    | cr k v =>
      simp only [scanStep] at hs
      split at hs
      · rw [← Option.some.inj hs]
        exact Or.inl ⟨k, h, by simp⟩
      · simp at hs
    | start => exact absurd h id
    | lf => exact absurd h id
    | endCr => exact absurd h id
    | endLf => exact absurd h id
    | ended => exact absurd h id

theorem Lost.run {F : UInt8 → Prop} {s s' : Scan} {w rest : Bytes} (h : Lost F s)
    (hr : headerScanner.run s w = some (s', rest)) : Lost F s' := by
  obtain ⟨-, -, hl⟩ := headerScanner.run_invariant (I := fun _ s => Lost F s) (p := [])
    (fun _ _ _ _ h hs => h.step hs) h hr
  exact hl

/-- A call resumed inside a line has lost the beginning of its key. -/
theorem resume_foreign {F : UInt8 → Prop} (hF : F CR) {st : HeaderLineState} (h : st.MidLine) :
    (resume CR st).Foreign F := by
  rcases h with rfl | rfl | rfl | rfl | rfl <;>
    simp [resume, Phase.Foreign, Foreign, hF]

/-- The next call on `h` stores a foreign key before it can succeed. -/
def Stray (F : UInt8 → Prop) (h : Http) : Prop :=
  HasForeign F h.headerKv ∨ h.headerLineState.MidLine ∨
    (h.headerLineState = .hLf ∧ F LF ∧ ∃ w, h.readBuffer = LF :: w)

theorem Stray.lost {F : UInt8 → Prop} (hF : F CR) {h : Http} (hs : Stray F h) {s : Scan}
    {rest : Bytes} (hr : headerScanner.run (Scan.enter CR h) h.readBuffer = some (s, rest)) :
    Lost F s := by
  rcases hs with hs | hs | ⟨hst, hlf, w, hw⟩
  · exact Lost.run (s := Scan.enter CR h) (Or.inl hs) hr
  · exact Lost.run (s := Scan.enter CR h) (Or.inr (resume_foreign hF hs)) hr
  · have hfirst : headerScanner.step (Scan.enter CR h) LF =
        some ⟨.key [LF], h.headerKv, [LF]⟩ := by
      simp [headerScanner, scanStep, Scan.enter, hst, resume, Scan.go, LF, CR]
    have hlive : headerScanner.halted (Scan.enter CR h) = false := by
      simp [headerScanner, Scan.enter, hst, resume]
    rw [hw, headerScanner.run_cons hlive, hfirst, Option.bind_some] at hr
    exact Lost.run (s := ⟨.key [LF], h.headerKv, [LF]⟩)
      (Or.inr ⟨by simp, by simp [Foreign, hlf]⟩) hr

/-- **Pieces after a stray cut succeed only with a foreign key in the map.** -/
theorem Stray.pieces {F : UInt8 → Prop} (hF : F CR) : ∀ (pieces : List Bytes) (n : Nat) (h : Http),
    Stray F h → (parsePieces (fun _ => CR) n h pieces).1 = .parseHeaderSuccess →
    HasForeign F (parsePieces (fun _ => CR) n h pieces).2.1.headerKv := by
  intro pieces
  -- on the pieces: the connection between two of them is stray again
  induction pieces with
  | nil =>
    intro n h hs hv
    simp only [parsePieces] at hv ⊢
    rcases parseHeaders_eq CR h with ⟨-, he⟩ | ⟨s, rest, hr, he⟩
    · rw [he] at hv; simp at hv
    · have hl := hs.lost hF hr
      rw [he, headerResult] at hv ⊢
      split at hv
      · next hd =>
        rw [if_pos hd]
        refine hl.resolve_right fun hp => ?_
        revert hd hp
        cases s.phase <;> simp [Phase.Done, Phase.Foreign]
      · simp at hv
  | cons q qs ih =>
    intro n h hs hv
    rcases parseHeaders_eq CR h with ⟨-, he⟩ | ⟨s, rest, hr, he⟩
    · rw [parsePieces_done (by rw [he]; simp)] at hv
      rw [he] at hv; simp at hv
    · have hl := hs.lost hF hr
      by_cases hd : s.phase.Done
      · rw [headerResult_done hd] at he
        rw [parsePieces_done (by rw [he]; simp), he]
        refine hl.resolve_right fun hp => ?_
        revert hd hp
        cases s.phase <;> simp [Phase.Done, Phase.Foreign]
      · rw [headerResult, if_neg hd] at he
        rw [parsePieces_again he] at hv ⊢
        refine ih (n + 1) _ ?_ hv
        rcases hl with hl | hl
        · exact Or.inl hl
        · refine Or.inr (Or.inl ?_)
          show s.phase.state.MidLine
          revert hl
          cases s.phase <;> simp [Phase.Foreign, Phase.state, HeaderLineState.MidLine]

/-! ## What one call on the whole header knows -/

/-- What the bytes `p` read from the beginning of a header say about the scanner. -/
structure Reads (p : Bytes) (s : Scan) : Prop where
  blank : s.phase = .start → Blank p
  cr : ∀ k v, s.phase = .cr k v → [CR] <:+ p
  lf : s.phase = .lf → [CR, LF] <:+ p ∧ s.kept = [LF]
  endCr : s.phase = .endCr → s.kept = [LF, CR]

theorem Reads.step {p : Bytes} {s s' : Scan} {c : UInt8} (h : Reads p s)
    (hs : scanStep s c = some s') : Reads (p ++ [c]) s' := by
  obtain ⟨phase, kv, kept⟩ := s
  cases phase with
  | start =>
    simp only [scanStep] at hs
    split at hs
    · next hc =>
      rw [← Option.some.inj hs]
      refine ⟨fun _ => ?_, by simp [Scan.go], by simp [Scan.go], by simp [Scan.go]⟩
      intro d hd
      rcases List.mem_append.mp hd with hd | hd
      · exact h.blank rfl d hd
      · rw [List.mem_singleton.mp hd]
        exact hc
    · rw [← Option.some.inj hs]
      exact ⟨by simp, by simp, by simp, by simp⟩
  | value k v =>
    simp only [scanStep] at hs
    split at hs
    · next hc =>
      rw [← Option.some.inj hs]
      refine ⟨by simp [Scan.go], fun _ _ _ => ?_, by simp [Scan.go], by simp [Scan.go]⟩
      rw [hc]
      exact List.suffix_append p [CR]
    · split at hs
      · simp at hs
      · rw [← Option.some.inj hs]
        exact ⟨by simp [Scan.go], by simp [Scan.go], by simp [Scan.go], by simp [Scan.go]⟩
  | cr k v =>
    simp only [scanStep] at hs
    split at hs
    · next hc =>
      rw [← Option.some.inj hs]
      refine ⟨by simp, by simp, fun _ => ⟨?_, by rw [hc]⟩, by simp⟩
      obtain ⟨q, hq⟩ := h.cr k v rfl
      exact ⟨q, by rw [← hq, hc]; simp⟩
    · simp at hs
  | lf =>
    simp only [scanStep] at hs
    split at hs
    · next hc =>
      rw [← Option.some.inj hs]
      refine ⟨by simp [Scan.go], by simp [Scan.go], by simp [Scan.go], fun _ => ?_⟩
      show kept ++ [c] = _
      rw [show kept = [LF] from (h.lf rfl).2, hc]
      rfl
    · rw [← Option.some.inj hs]
      exact ⟨by simp [Scan.go], by simp [Scan.go], by simp [Scan.go], by simp [Scan.go]⟩
  | key k =>
    refine ⟨?_, ?_, ?_, ?_⟩ <;> simp only [scanStep, Scan.go] at hs <;> grind
  | colon k =>
    refine ⟨?_, ?_, ?_, ?_⟩ <;> simp only [scanStep, Scan.go] at hs <;> grind
  | spaces k =>
    refine ⟨?_, ?_, ?_, ?_⟩ <;> simp only [scanStep, Scan.go] at hs <;> grind
  | endCr =>
    refine ⟨?_, ?_, ?_, ?_⟩ <;> simp only [scanStep, Scan.go] at hs <;> grind
  | endLf =>
    refine ⟨?_, ?_, ?_, ?_⟩ <;> simp only [scanStep] at hs <;> grind
  | ended => simp [scanStep] at hs

theorem reads_init : Reads [] Scan.init :=
  ⟨fun _ _ h => absurd h List.not_mem_nil, by simp [Scan.init], by simp [Scan.init],
    by simp [Scan.init]⟩

theorem scan_reads {p : Bytes} {s : Scan}
    (h : headerScanner.run Scan.init p = some (s, [])) : Reads p s := by
  obtain ⟨q, hq, hr⟩ := headerScanner.run_invariant (fun _ _ _ _ h hs => Reads.step h hs)
    reads_init h
  rw [List.append_nil] at hq
  rw [hq]
  exact hr

theorem NoBareLf.left {p q : Bytes} (h : NoBareLf (p ++ q)) : NoBareLf p :=
  fun hp => h (hp.trans (List.prefix_append p q).isInfix)

/-- No key stored or being read is foreign. -/
structure Native (F : UInt8 → Prop) (s : Scan) : Prop where
  stored : ¬ HasForeign F s.kv
  phase : match s.phase with
    | .key k => ¬ Foreign F k
    | .colon k => ¬ Foreign F k
    | .spaces k => ¬ Foreign F k
    | .value k _ => ¬ Foreign F k
    | .cr k _ => ¬ Foreign F k
    | _ => True

theorem not_foreign_concat {F : UInt8 → Prop} {k : Bytes} (h : ¬ Foreign F k) (c : UInt8) :
    ¬ Foreign F (k ++ [c]) := by
  cases k with
  | nil => exact absurd (by simp [Foreign]) h
  | cons d k => exact h

theorem not_hasForeign_set {F : UInt8 → Prop} {kv : HeaderMap} {key : Bytes} (value : Bytes)
    (h : ¬ HasForeign F kv) (hk : ¬ Foreign F key) : ¬ HasForeign F (kv.set key value) := by
  rintro ⟨k, hf, hs⟩
  by_cases hkk : k = key
  · exact hk (hkk ▸ hf)
  · rw [kv.set_ne value hkk] at hs
    exact h ⟨k, hf, hs⟩

/-- The first bytes that a key read from the beginning of a header cannot have. -/
def LineBreak (F : UInt8 → Prop) : Prop := ∀ c, F c → c = CR ∨ c = LF

theorem Native.step {F : UInt8 → Prop} (hF : LineBreak F) {p : Bytes} {s s' : Scan} {c : UInt8}
    (hr : Reads p s) (hp : F LF → NoBareLf (p ++ [c])) (h : Native F s)
    (hs : scanStep s c = some s') : Native F s' := by
  obtain ⟨phase, kv, kept⟩ := s
  obtain ⟨hkv, hph⟩ := h
  dsimp only at hkv hph
  cases phase with
  | start =>
    simp only [scanStep] at hs
    split at hs
    · rw [← Option.some.inj hs]
      exact ⟨hkv, trivial⟩
    · next hc =>
      rw [← Option.some.inj hs]
      -- `H_START` lets neither line break begin a key
      refine ⟨hkv, fun hf => hc ?_⟩
      exact (hF c (hf c rfl)).symm
  | key k =>
    simp only [scanStep] at hs
    split at hs
    · rw [← Option.some.inj hs]
      exact ⟨hkv, hph⟩
    · split at hs
      · simp at hs
      · rw [← Option.some.inj hs]
        exact ⟨hkv, not_foreign_concat hph c⟩
  | colon k =>
    simp only [scanStep] at hs
    split at hs
    · rw [← Option.some.inj hs]
      exact ⟨hkv, hph⟩
    · simp at hs
  | spaces k =>
    rw [← Option.some.inj hs]
    exact ⟨hkv, hph⟩
  | value k v =>
    simp only [scanStep] at hs
    split at hs
    · rw [← Option.some.inj hs]
      exact ⟨hkv, hph⟩
    · split at hs
      · simp at hs
      · rw [← Option.some.inj hs]
        exact ⟨hkv, hph⟩
  | cr k v =>
    simp only [scanStep] at hs
    split at hs
    · rw [← Option.some.inj hs]
      exact ⟨not_hasForeign_set v hkv hph, trivial⟩
    · simp at hs
  | lf =>
    simp only [scanStep] at hs
    split at hs
    · rw [← Option.some.inj hs]
      exact ⟨hkv, trivial⟩
    · next hc =>
      rw [← Option.some.inj hs]
      refine ⟨hkv, fun hf => ?_⟩
      -- the only foreign first byte left is the line feed, and that follows on `CR LF`
      have hlf : c = LF := (hF c (hf c rfl)).resolve_left hc
      obtain ⟨q, hq⟩ := (hr.lf rfl).1
      refine hp (by rw [← hlf]; exact hf c rfl) ⟨q, [], ?_⟩
      rw [← hq, hlf]
      simp
  | endCr =>
    simp only [scanStep] at hs
    split at hs
    · rw [← Option.some.inj hs]
      exact ⟨hkv, trivial⟩
    · simp at hs
  | endLf =>
    rw [← Option.some.inj hs]
    exact ⟨hkv, trivial⟩
  | ended => simp [scanStep] at hs

/-- **One call on the whole header stores no foreign key.** -/
theorem scan_native {F : UInt8 → Prop} (hF : LineBreak F) {p rest : Bytes} {s : Scan}
    (hp : F LF → NoBareLf p) (h : headerScanner.run Scan.init p = some (s, rest)) :
    ¬ HasForeign F s.kv := by
  have hinit : Native F Scan.init := by
    refine ⟨?_, trivial⟩
    rintro ⟨k, -, hk⟩
    simp [Scan.init, HeaderMap.empty] at hk
  obtain ⟨q, hq, -, hn⟩ := headerScanner.run_invariant
    (I := fun p s => Reads p s ∧ ((F LF → NoBareLf p) → Native F s)) (p := [])
    (fun p s c s' ⟨hr, hn⟩ hs => ⟨hr.step hs, fun hp =>
      (hn fun hlf => (hp hlf).left).step hF hr hp hs⟩) ⟨reads_init, fun _ => hinit⟩ h
  refine (hn fun hlf => ?_).stored
  rw [hq] at hp
  exact (hp hlf).left

/-! ## Every other cut does harm -/

/-- A call that stops inside a header leaves what it kept. -/
theorem parsePieces_midway {before : Nat → UInt8} {n : Nat} {h : Http} {p : Bytes} {s : Scan}
    (hr : headerScanner.run Scan.init p = some (s, [])) (hd : ¬ s.phase.Done) (q : Bytes)
    (qs : List Bytes) :
    parsePieces before n (h.atHeader p) (q :: qs) =
      parsePieces before (n + 1) { h.atHeader p with
        readBuffer := s.kept ++ q, headerLineState := s.phase.state, headerKv := s.kv } qs := by
  have he := @parseHeaders_of_scan (before n) (h.atHeader p) s [] hr
  rw [headerResult, if_neg hd] at he
  rw [parsePieces_again he]

/-- A cut right after the empty line: one call takes a byte of what follows, the pieces do not. -/
theorem not_matches_endLf {b : UInt8} {before : Nat → UInt8} {n : Nat} {h : Http} {p : Bytes}
    {s : Scan} {pieces : List Bytes} (hr : headerScanner.run Scan.init p = some (s, []))
    (hp : s.phase = .endLf) (hne : pieces.flatten ≠ []) :
    ¬ Matches (parsePieces before n (h.atHeader p) pieces)
      (parseHeaders b (h.atHeader (p ++ pieces.flatten))) := by
  intro hm
  have hd : s.phase.Done := by rw [hp]; trivial
  have hone := parseHeaders_complete (before n) h hr hd
  rw [parsePieces_done (by rw [hone]; simp), hone] at hm
  obtain ⟨c, w, hcw⟩ := List.exists_cons_of_ne_nil hne
  have hwhole : headerScanner.run Scan.init (p ++ pieces.flatten) =
      some ({ s with phase := .ended, kept := [c] }, w) := by
    rw [headerScanner.run_append_of_run hr, hcw,
      headerScanner.run_cons (by simp [headerScanner, hp])]
    have hstep : headerScanner.step s c = some { s with phase := .ended, kept := [c] } := by
      simp [headerScanner, scanStep, hp]
    rw [hstep, Option.bind_some, headerScanner.run_halted rfl]
  rw [parseHeaders_complete b h hwhole trivial] at hm
  have hlen := congrArg List.length (hm.2 rfl).2
  rw [hcw] at hlen
  simp at hlen

/-- The scanner before the last line feed finishes only by reading it. -/
theorem endCr_complete {p t : Bytes} {s : Scan}
    (hr : headerScanner.run Scan.init p = some (s, [])) (hp : s.phase = .endCr)
    (hc : HeaderComplete (p ++ t)) :
    ∃ s' rest, headerScanner.run Scan.init (p ++ t) = some (s', rest) ∧ s'.phase.Done ∧
      rest.length < t.length := by
  obtain ⟨s', rest, hr', hd⟩ := hc
  refine ⟨s', rest, hr', hd, ?_⟩
  rw [headerScanner.run_append_of_run hr] at hr'
  cases t with
  | nil =>
    rw [headerScanner.run_nil, Option.some.injEq, Prod.mk.injEq] at hr'
    rw [← hr'.1, hp] at hd
    exact absurd hd id
  | cons c w =>
    rw [headerScanner.run_cons (by simp [headerScanner, hp])] at hr'
    obtain ⟨s₁, -, h₁⟩ := Option.bind_eq_some_iff.mp hr'
    obtain ⟨q, rfl, -⟩ := headerScanner.run_invariant (I := fun _ _ => True) (p := [])
      (fun _ _ _ _ _ _ => trivial) trivial h₁
    rw [List.length_cons, List.length_append]
    omega

/-- A call that resumes before the last line feed finds it among the kept bytes. -/
theorem parseHeaders_endCr (b : UInt8) {g : Http} {q : Bytes} (hst : g.headerLineState = .hEndCr)
    (hb : g.readBuffer = LF :: CR :: q) :
    parseHeaders b g =
      (.parseHeaderSuccess, { g with readBuffer := q, headerLineState := .hEndLf }) := by
  have hrun : headerScanner.run (Scan.enter b g) g.readBuffer =
      some (⟨.ended, g.headerKv, [CR]⟩, q) := by
    have h1 : headerScanner.step (Scan.enter b g) LF = some ⟨.endLf, g.headerKv, [LF]⟩ := by
      simp [headerScanner, scanStep, Scan.enter, resume, Scan.go, hst]
    rw [hb, headerScanner.run_cons (by simp [headerScanner, Scan.enter, resume, hst]), h1,
      Option.bind_some, headerScanner.run_cons rfl]
    exact headerScanner.run_halted rfl q
  rw [parseHeaders_of_scan hrun, headerResult_done (s := ⟨.ended, g.headerKv, [CR]⟩) trivial]

/-- A cut inside the empty line: the next call reads the rest of it from the kept bytes. -/
theorem not_matches_endCr {b : UInt8} {before : Nat → UInt8} {n : Nat} {h : Http} {p q : Bytes}
    {s : Scan} {qs : List Bytes} (hr : headerScanner.run Scan.init p = some (s, []))
    (hp : s.phase = .endCr) (hc : HeaderComplete (p ++ (q :: qs).flatten)) :
    ¬ Matches (parsePieces before n (h.atHeader p) (q :: qs))
      (parseHeaders b (h.atHeader (p ++ (q :: qs).flatten))) := by
  intro hm
  obtain ⟨s', rest, hr', hd', hlt⟩ := endCr_complete hr hp hc
  rw [parseHeaders_complete b h hr' hd', parsePieces_midway hr (by rw [hp]; exact id),
    (scan_reads hr).endCr hp, hp] at hm
  have hnext := parseHeaders_endCr (before (n + 1)) (q := q) (g := { h.atHeader p with
    readBuffer := [LF, CR] ++ q, headerLineState := .hEndCr, headerKv := s.kv }) rfl rfl
  rw [Phase.state, parsePieces_done (by rw [hnext]; simp), hnext] at hm
  have hlen := congrArg List.length (hm.2 rfl).2
  simp only [List.length_append, List.flatten_cons] at hlen hlt
  omega

/-- A cut inside a header line, or behind one: no key of the header is among the keys stored. -/
theorem not_matches_stray {F : UInt8 → Prop} (hF : LineBreak F) (hCr : F CR) {n : Nat} {h : Http}
    {p q : Bytes} {s : Scan} {qs : List Bytes}
    (hr : headerScanner.run Scan.init p = some (s, []))
    (hp : s.phase.state.MidLine ∨ (s.phase = .lf ∧ F LF))
    (hc : HeaderComplete (p ++ (q :: qs).flatten))
    (hn : F LF → NoBareLf (p ++ (q :: qs).flatten)) :
    ¬ Matches (parsePieces (fun _ => CR) n (h.atHeader p) (q :: qs))
      (parseHeaders CR (h.atHeader (p ++ (q :: qs).flatten))) := by
  intro hm
  obtain ⟨s', rest, hr', hd'⟩ := hc
  have hd : ¬ s.phase.Done := by
    rw [s.phase.done_iff]
    rcases hp with hp | hp
    · rcases hp with hp | hp | hp | hp | hp <;> rw [hp] <;> simp
    · rw [hp.1]
      simp [Phase.state]
  rw [parsePieces_midway hr hd, parseHeaders_complete CR h hr' hd'] at hm
  have hstray : Stray F { h.atHeader p with
      readBuffer := s.kept ++ q, headerLineState := s.phase.state, headerKv := s.kv } := by
    rcases hp with hp | ⟨hp, hlf⟩
    · exact Or.inr (Or.inl hp)
    · refine Or.inr (Or.inr ⟨by rw [hp]; rfl, hlf, q, ?_⟩)
      rw [((scan_reads hr).lf hp).2]
      rfl
  have hforeign := hstray.pieces hCr qs (n + 1) _ hm.1
  rw [(hm.2 rfl).1] at hforeign
  exact scan_native hF hn hr' hforeign

/-- The phases in which a call can stop. -/
theorem Phase.cases_state (p : Phase) :
    p = .start ∨ p = .lf ∨ p = .endCr ∨ p = .endLf ∨ p = .ended ∨ p.state.MidLine := by
  cases p <;> simp [Phase.state, HeaderLineState.MidLine]

/-- The bytes no key of a well-formed header begins with. -/
def BreakByte (c : UInt8) : Prop := c = CR ∨ c = LF

theorem settled_of_ended {p : Bytes} {s : Scan} {rest : Bytes}
    (hr : headerScanner.run Scan.init p = some (s, rest)) (hp : s.phase = .ended) : Settled p := by
  intro s' rest' hr'
  rw [hr, Option.some.injEq, Prod.mk.injEq] at hr'
  rw [← hr'.1]
  exact hp

/-- **Pieces that give what the whole gives were cut cleanly.** -/
theorem cleanCuts_of_matches (h : Http) : ∀ (pieces : List Bytes) (p : Bytes) (n : Nat),
    HeaderComplete (p ++ pieces.flatten) → NoBareLf (p ++ pieces.flatten) →
    Matches (parsePieces (fun _ => CR) n (h.atHeader p) pieces)
      (parseHeaders CR (h.atHeader (p ++ pieces.flatten))) →
    CleanCuts p pieces
  | [], _, _, _, _, _ => trivial
  | q :: qs, p, n, hc, hn, hm => by
    cases hrun : headerScanner.run Scan.init p with
    | none =>
      obtain ⟨s', rest', hr', -⟩ := hc
      rw [headerScanner.run_append_none hrun] at hr'
      simp at hr'
    | some r =>
      obtain ⟨s, rest⟩ := r
      by_cases hended : s.phase = .ended
      · exact (settled_of_ended hrun hended).cleanCuts _
      · have hrest : rest = [] :=
          (headerScanner.run_rest hrun).resolve_right
            fun hh => hended (headerScanner_halted.mp hh)
        rw [hrest] at hrun
        rcases s.phase.cases_state with hp | hp | hp | hp | hp | hp
        · have hblank := (scan_reads hrun).blank hp
          rw [parsePieces_blank hblank] at hm
          rw [List.flatten_cons, ← List.append_assoc] at hc hn hm
          exact ⟨Or.inl hblank, cleanCuts_of_matches h qs (p ++ q) (n + 1) hc hn hm⟩
        · exact absurd hm (not_matches_stray (F := BreakByte) (fun _ => id) (Or.inl rfl) hrun
            (Or.inr ⟨hp, Or.inr rfl⟩) hc fun _ => hn)
        · exact absurd hm (not_matches_endCr hrun hp hc)
        · refine EndsHeader.cleanCuts _ ⟨s, hrun, hp⟩ ?_
          exact of_not_not fun hne => not_matches_endLf hrun hp hne hm
        · exact absurd hp hended
        · exact absurd hm (not_matches_stray (F := BreakByte) (fun _ => id) (Or.inl rfl) hrun
            (Or.inl hp) hc fun _ => hn)

/-- Bytes after which the scanner has read a whole header. -/
def Phase.finish : Phase → Bytes
  | .key _ => text ": x\r\n\r\n"
  | .colon _ => text " x\r\n\r\n"
  | .spaces _ => text "x\r\n\r\n"
  | .value _ _ => text "\r\n\r\n"
  | .cr _ _ => text "\n\r\n"
  | .lf => text "\r\n"
  | .endCr => text "\n"
  | _ => []

theorem finish_complete {p : Bytes} {s : Scan}
    (hr : headerScanner.run Scan.init p = some (s, [])) (hs : s.phase ≠ .start) :
    HeaderComplete (p ++ s.phase.finish) := by
  unfold HeaderComplete
  rw [headerScanner.run_append_of_run hr]
  obtain ⟨phase, kv, kept⟩ := s
  cases phase with
  | start => exact absurd rfl hs
  | key k => exact ⟨_, _, rfl, trivial⟩
  | colon k => exact ⟨_, _, rfl, trivial⟩
  | spaces k => exact ⟨_, _, rfl, trivial⟩
  | value k v => exact ⟨_, _, rfl, trivial⟩
  | cr k v => exact ⟨_, _, rfl, trivial⟩
  | lf => exact ⟨_, _, rfl, trivial⟩
  | endCr => exact ⟨_, _, rfl, trivial⟩
  | endLf => exact ⟨_, _, rfl, trivial⟩
  | ended => exact ⟨_, _, rfl, trivial⟩

/-- A cut behind a line, before the empty line: the kept line feed begins a key. -/
theorem not_matches_lf {b : UInt8} {before : Nat → UInt8} {n : Nat} {h : Http} {p : Bytes}
    {s : Scan} (hr : headerScanner.run Scan.init p = some (s, [])) (hp : s.phase = .lf) :
    ¬ Matches (parsePieces before n (h.atHeader p) [s.phase.finish])
      (parseHeaders b (h.atHeader (p ++ s.phase.finish))) := by
  intro hm
  obtain ⟨s', rest, hr', hd'⟩ := finish_complete hr (by rw [hp]; simp)
  rw [parseHeaders_complete b h hr' hd',
    parsePieces_midway hr (by rw [hp]; exact id), ((scan_reads hr).lf hp).2, hp] at hm
  have he := @parseHeaders_of_refused (before (n + 1)) { h.atHeader p with
    readBuffer := [LF] ++ Phase.lf.finish, headerLineState := .hLf, headerKv := s.kv } rfl
  have hv := hm.1
  simp only [parsePieces, Phase.state] at hv
  rw [he] at hv
  simp at hv

/-- **A cut at any other place does harm to some header that goes on from there.** -/
theorem exists_not_sameOutcome (h : Http) {p : Bytes} (hb : ¬ Blank p) (hs : ¬ Settled p) :
    ∃ t, ¬ SameOutcome h p [t] := by
  simp only [Settled, not_forall] at hs
  obtain ⟨s, rest, hr, hended⟩ := hs
  have hrest : rest = [] :=
    (headerScanner.run_rest hr).resolve_right fun hh => hended (headerScanner_halted.mp hh)
  rw [hrest] at hr
  have hstart : s.phase ≠ .start := fun hp => hb ((scan_reads hr).blank hp)
  have hc := finish_complete hr hstart
  by_cases hend : s.phase = .endLf
  · have hne : [[(0 : UInt8)]].flatten ≠ [] := by simp
    exact ⟨[0], fun hsame => not_matches_endLf hr hend hne (hsame (fun _ => CR) CR)⟩
  · refine ⟨s.phase.finish, fun hsame => ?_⟩
    have hm := hsame (fun _ => CR) CR
    have hc' : HeaderComplete (p ++ [s.phase.finish].flatten) := by simpa using hc
    rcases s.phase.cases_state with hp | hp | hp | hp | hp | hp
    · exact hstart hp
    · exact not_matches_lf hr hp (by simpa using hm)
    · exact not_matches_endCr hr hp hc' hm
    · exact hend hp
    · exact hended hp
    · exact not_matches_stray (F := (· = CR)) (fun c => Or.inl) rfl hr (Or.inl hp) hc'
        (fun hlf => absurd hlf (by decide)) hm

/--
**When incremental header parsing is one-shot parsing.** Clean cuts are enough for any bytes. For
bytes that hold a whole header, in which no line feed follows on a `CR LF`, they are also needed.
And wherever a cut is neither among leading line breaks nor behind the point where the bytes are
refused or one byte longer than the header, some continuation of the bytes is parsed differently.
-/
theorem parseHeaders_incremental (h : Http) (piece : Bytes) (pieces : List Bytes) :
    (CleanCuts piece pieces → SameOutcome h piece pieces) ∧
      (HeaderComplete (piece ++ pieces.flatten) → NoBareLf (piece ++ pieces.flatten) →
        (SameOutcome h piece pieces ↔ CleanCuts piece pieces)) ∧
      (¬ Blank piece → ¬ Settled piece → ∃ t, ¬ SameOutcome h piece [t]) := by
  have hclean : CleanCuts piece pieces → SameOutcome h piece pieces :=
    fun hc before b => hc.same h before b pieces piece 0
  exact ⟨hclean, fun hc hn => ⟨fun hs => cleanCuts_of_matches h pieces piece 0 hc hn
    (hs (fun _ => CR) CR), hclean⟩, exists_not_sameOutcome h⟩

/-- A cut behind a leading line break is clean, one inside a key is not. -/
theorem parseHeaders_incremental_cuts :
    (CleanCuts (text "\r\n") [text "A: b\r\n\r\nG"] ∧
      SameOutcome (Http.construct true) (text "\r\n") [text "A: b\r\n\r\nG"]) ∧
    (¬ CleanCuts (text "A") [text ": b\r\n\r\n"] ∧
      ¬ SameOutcome (Http.construct true) (text "A") [text ": b\r\n\r\n"]) ∧
    ∃ t, ¬ SameOutcome (Http.construct true) (text "A") [t] := by
  have hblank : ¬ Blank (text "A") := by decide
  have hsettled : ¬ Settled (text "A") := fun hs => Phase.noConfusion (hs _ _ rfl)
  have hclean : CleanCuts (text "\r\n") [text "A: b\r\n\r\nG"] := ⟨Or.inl (by decide), trivial⟩
  have hunclean : ¬ CleanCuts (text "A") [text ": b\r\n\r\n"] := by
    rintro ⟨hb | hs | ⟨-, hnil⟩, -⟩
    · exact hblank hb
    · exact hsettled hs
    · exact absurd hnil (by decide)
  have hcomplete : HeaderComplete (text "A" ++ [text ": b\r\n\r\n"].flatten) := by
    refine ⟨_, _, rfl, ?_⟩
    trivial
  refine ⟨⟨hclean, (parseHeaders_incremental _ _ _).1 hclean⟩, ⟨hunclean, fun hs => hunclean ?_⟩,
    (parseHeaders_incremental _ _ []).2.2 hblank hsettled⟩
  refine ((parseHeaders_incremental _ _ _).2.1 hcomplete ?_).mp hs
  unfold NoBareLf
  decide

/-- One header line and the empty line, cut between them, are refused. -/
theorem parseHeaders_cut_behind_line :
    ¬ SameOutcome (Http.construct true) (text "A: b\r\n") [text "\r\n"] := by
  intro hs
  have hv := (hs (fun _ => 0) 0).1
  revert hv
  decide

end FlashWeb
