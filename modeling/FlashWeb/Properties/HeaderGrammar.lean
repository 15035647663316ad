import FlashWeb.Properties.Incremental

/-!
# The grammar of a header

What `ParseHeaders` accepts, without an automaton: line breaks, then lines `key: value`, then an
empty line. A key is at least one byte and a value one to 256 bytes; the first byte of either is
held to less than the others. `Spells` says which piece of a header has been read in each phase of
the scanner. With it the three verdicts are read off the grammar (`parseHeaders_grammar`): accepted,
on the way to being accepted, or beyond it.
-/

namespace FlashWeb

open Lib

/-! ## Lines and headers -/

/-- A key: the first byte is no carriage return, the others no colon and no line break either. -/
def IsKey : Bytes → Prop
  | [] => False
  | c :: t => c ≠ CR ∧ ∀ d ∈ t, d ≠ COLON ∧ d ≠ CR ∧ d ≠ LF

/-- A value: any byte, and up to 255 others that are no carriage return. -/
def IsValue : Bytes → Prop
  | [] => False
  | _ :: t => CR ∉ t ∧ t.length ≤ 255

/-- A line of a header. -/
structure HeaderLine where
  key : Bytes
  value : Bytes
  isKey : IsKey key
  isValue : IsValue value

/-- The line as it is sent. -/
def HeaderLine.bytes (l : HeaderLine) : Bytes := l.key ++ ([COLON, SPACE] ++ (l.value ++ [CR, LF]))

/-- What a map holds after the lines were stored in it one after the other. -/
def storeLines (kv : HeaderMap) (lines : List HeaderLine) : HeaderMap :=
  lines.foldl (fun kv l => kv.set l.key l.value) kv

/-- Line breaks and whole lines: the beginning of a header, up to the end of a line. -/
structure HeaderLines where
  breaks : Bytes
  lines : List HeaderLine
  blank : Blank breaks
  /-- a line feed in front of the first key is one of the line breaks -/
  first : ∀ l ∈ lines.head?, l.key.head? ≠ some LF

def HeaderLines.bytes (g : HeaderLines) : Bytes := g.breaks ++ g.lines.flatMap HeaderLine.bytes

def HeaderLines.kv (g : HeaderLines) : HeaderMap := storeLines HeaderMap.empty g.lines

/-- A header: at least one line, and the empty line behind them. -/
structure Header extends HeaderLines where
  nonempty : lines ≠ []

def Header.bytes (g : Header) : Bytes := g.toHeaderLines.bytes ++ [CR, LF]

/-- The bytes are a header. -/
def IsHeader (s : Bytes) : Prop := ∃ g : Header, g.bytes = s

theorem IsKey.concat {k : Bytes} (h : IsKey k) {c : UInt8} (hc : c ≠ COLON) (hcr : c ≠ CR)
    (hlf : c ≠ LF) : IsKey (k ++ [c]) := by
  cases k with
  | nil => exact h.elim
  | cons d t =>
    refine ⟨h.1, ?_⟩
    intro e he
    rcases List.mem_append.mp he with he | he
    · exact h.2 e he
    · rw [List.mem_singleton.mp he]
      exact ⟨hc, hcr, hlf⟩

theorem IsValue.concat {v : Bytes} (h : IsValue v) {c : UInt8} (hc : c ≠ CR)
    (hlen : v.length ≤ 255) : IsValue (v ++ [c]) := by
  cases v with
  | nil => exact h.elim
  | cons d t =>
    constructor
    · show CR ∉ t ++ [c]
      simp only [List.mem_append, List.mem_singleton, not_or]
      exact ⟨h.1, hc.symm⟩
    · show (t ++ [c]).length ≤ 255
      simpa using hlen

/-- The line behind the lines so far. -/
def HeaderLines.add (g : HeaderLines) (l : HeaderLine)
    (hl : g.lines = [] → l.key.head? ≠ some LF) : HeaderLines where
  breaks := g.breaks
  lines := g.lines ++ [l]
  blank := g.blank
  first := by
    cases hg : g.lines with
    | nil =>
      intro l' hl'
      rw [← Option.some.inj hl']
      exact hl hg
    | cons l₀ ls =>
      have := g.first
      rw [hg] at this
      exact this

@[simp] theorem HeaderLines.add_bytes (g : HeaderLines) (l : HeaderLine)
    (hl : g.lines = [] → l.key.head? ≠ some LF) : (g.add l hl).bytes = g.bytes ++ l.bytes := by
  simp [HeaderLines.bytes, HeaderLines.add]

@[simp] theorem HeaderLines.add_kv (g : HeaderLines) (l : HeaderLine)
    (hl : g.lines = [] → l.key.head? ≠ some LF) :
    (g.add l hl).kv = g.kv.set l.key l.value := by
  simp [HeaderLines.kv, HeaderLines.add, storeLines]

/-- **The map holds the value of the last line with the key.** -/
theorem storeLines_apply (key : Bytes) : ∀ (lines : List HeaderLine) (kv : HeaderMap),
    storeLines kv lines key =
      ((lines.reverse.find? (·.key = key)).map HeaderLine.value).or (kv key)
  | [], kv => rfl
  | l :: lines, kv => by
    show storeLines (kv.set l.key l.value) lines key = _
    rw [storeLines_apply key lines, List.reverse_cons, List.find?_append]
    cases lines.reverse.find? (·.key = key) with
    | some l' => simp
    | none =>
      by_cases hk : l.key = key
      · simp [hk]
      · rw [kv.set_ne l.value (Ne.symm hk)]
        simp [hk]

/-! ## A header is read as one -/

theorem scan_key (kv : HeaderMap) : ∀ (t k kept rest : Bytes),
    (∀ d ∈ t, d ≠ COLON ∧ d ≠ CR ∧ d ≠ LF) →
    headerScanner.run ⟨.key k, kv, kept⟩ (t ++ rest) =
      headerScanner.run ⟨.key (k ++ t), kv, kept ++ t⟩ rest
  | [], k, kept, rest, _ => by simp
  | c :: t, k, kept, rest, h => by
    obtain ⟨hcolon, hcr, hlf⟩ := h c List.mem_cons_self
    have hstep : headerScanner.step ⟨.key k, kv, kept⟩ c =
        some ⟨.key (k ++ [c]), kv, kept ++ [c]⟩ := by
      simp [headerScanner, scanStep, hcolon, hcr, hlf, Scan.go]
    rw [List.cons_append, headerScanner.run_cons rfl, hstep, Option.bind_some,
      scan_key kv t _ _ rest fun d hd => h d (List.mem_cons_of_mem _ hd)]
    simp

theorem scan_value (kv : HeaderMap) (k : Bytes) : ∀ (t v kept rest : Bytes), CR ∉ t →
    v.length + t.length ≤ 256 →
    headerScanner.run ⟨.value k v, kv, kept⟩ (t ++ rest) =
      headerScanner.run ⟨.value k (v ++ t), kv, kept ++ t⟩ rest
  | [], v, kept, rest, _, _ => by simp
  | c :: t, v, kept, rest, h, hlen => by
    rw [List.mem_cons, not_or] at h
    rw [List.length_cons] at hlen
    have hstep : headerScanner.step ⟨.value k v, kv, kept⟩ c =
        some ⟨.value k (v ++ [c]), kv, kept ++ [c]⟩ := by
      have hshort : ¬ v.length > 255 := by omega
      simp [headerScanner, scanStep, Ne.symm h.1, hshort, Scan.go]
    rw [List.cons_append, headerScanner.run_cons rfl, hstep, Option.bind_some,
      scan_value kv k t _ _ rest h.2 (by simp; omega)]
    simp

/-- From the first byte of its key on, a line is stored when it ends. -/
theorem scan_line (kv : HeaderMap) (kept rest : Bytes) (l : HeaderLine) {c : UInt8} {t : Bytes}
    (hk : l.key = c :: t) :
    headerScanner.run ⟨.key [c], kv, kept⟩
        (t ++ ([COLON, SPACE] ++ (l.value ++ [CR, LF])) ++ rest) =
      headerScanner.run ⟨.lf, kv.set l.key l.value, [LF]⟩ rest := by
  have hkey := l.isKey
  rw [hk] at hkey
  obtain ⟨d, u, hv⟩ : ∃ d u, l.value = d :: u := by
    cases hv : l.value with
    | nil => exact (hv ▸ l.isValue : IsValue []).elim
    | cons d u => exact ⟨d, u, rfl⟩
  have hvalue := l.isValue
  rw [hv] at hvalue
  rw [List.append_assoc, scan_key kv t [c] kept _ hkey.2, hk, hv]
  -- the colon, the space and the first byte of the value
  show headerScanner.run ⟨.value (c :: t) [d], kv, _⟩ ((u ++ [CR, LF]) ++ rest) = _
  rw [List.append_assoc, scan_value kv (c :: t) u [d] _ _ hvalue.1
    (by have := hvalue.2; simp; omega)]
  rfl

/-- The first line, behind the line breaks. -/
theorem scan_first_line (kv : HeaderMap) (kept rest : Bytes) (l : HeaderLine)
    (hl : l.key.head? ≠ some LF) :
    headerScanner.run ⟨.start, kv, kept⟩ (l.bytes ++ rest) =
      headerScanner.run ⟨.lf, kv.set l.key l.value, [LF]⟩ rest := by
  cases hk : l.key with
  | nil => exact (hk ▸ l.isKey : IsKey []).elim
  | cons c t =>
    have hkey := l.isKey
    rw [hk] at hkey hl
    have hlf : c ≠ LF := by simpa using hl
    have hstep : headerScanner.step ⟨.start, kv, kept⟩ c = some ⟨.key [c], kv, [c]⟩ := by
      simp [headerScanner, scanStep, hkey.1, hlf]
    unfold HeaderLine.bytes
    rw [hk, List.cons_append, List.cons_append, headerScanner.run_cons rfl, hstep, Option.bind_some,
      scan_line kv [c] rest l hk, hk]

/-- Every other line. -/
theorem scan_next_line (kv : HeaderMap) (kept rest : Bytes) (l : HeaderLine) :
    headerScanner.run ⟨.lf, kv, kept⟩ (l.bytes ++ rest) =
      headerScanner.run ⟨.lf, kv.set l.key l.value, [LF]⟩ rest := by
  cases hk : l.key with
  | nil => exact (hk ▸ l.isKey : IsKey []).elim
  | cons c t =>
    have hkey := l.isKey
    rw [hk] at hkey
    have hstep : headerScanner.step ⟨.lf, kv, kept⟩ c = some ⟨.key [c], kv, kept ++ [c]⟩ := by
      simp [headerScanner, scanStep, hkey.1, Scan.go]
    unfold HeaderLine.bytes
    rw [hk, List.cons_append, List.cons_append, headerScanner.run_cons rfl, hstep, Option.bind_some,
      scan_line kv _ rest l hk, hk]

theorem scan_next_lines (rest : Bytes) : ∀ (lines : List HeaderLine) (kv : HeaderMap),
    headerScanner.run ⟨.lf, kv, [LF]⟩ (lines.flatMap HeaderLine.bytes ++ rest) =
      headerScanner.run ⟨.lf, storeLines kv lines, [LF]⟩ rest
  | [], kv => by simp [storeLines]
  | l :: lines, kv => by
    rw [List.flatMap_cons, List.append_assoc, scan_next_line, scan_next_lines rest lines]
    rfl

/-- **Whole lines are stored.** -/
theorem scan_headerLines (g : HeaderLines) (hne : g.lines ≠ []) (rest : Bytes) :
    headerScanner.run Scan.init (g.bytes ++ rest) =
      headerScanner.run ⟨.lf, g.kv, [LF]⟩ rest := by
  obtain ⟨breaks, lines, hblank, hfirst⟩ := g
  cases lines with
  | nil => exact absurd rfl hne
  | cons l lines =>
    unfold HeaderLines.bytes HeaderLines.kv
    dsimp only
    rw [List.append_assoc, Scan.init, headerScanner.run_append_of_run (scan_blank breaks hblank []),
      List.flatMap_cons, List.append_assoc, scan_first_line _ _ _ l (hfirst l rfl),
      scan_next_lines]
    rfl

theorem scan_header (g : Header) :
    headerScanner.run Scan.init g.bytes = some (⟨.endLf, g.kv, [LF, CR, LF]⟩, []) := by
  unfold Header.bytes
  rw [scan_headerLines g.toHeaderLines g.nonempty]
  rfl

/-! ## What is read is a header -/

/-- `k` may follow the lines `g` as a key. -/
structure KeyAfter (g : HeaderLines) (k : Bytes) : Prop where
  isKey : IsKey k
  first : g.lines = [] → k.head? ≠ some LF

/-- What the bytes `p` are when they take the scanner to `s`. -/
def Spells (p : Bytes) (s : Scan) : Prop :=
  match s.phase with
  | .start => Blank p ∧ s.kv = HeaderMap.empty
  | .key k => ∃ g : HeaderLines, g.kv = s.kv ∧ KeyAfter g k ∧ p = g.bytes ++ k
  | .colon k => ∃ g : HeaderLines, g.kv = s.kv ∧ KeyAfter g k ∧ p = g.bytes ++ (k ++ [COLON])
  | .spaces k => ∃ g : HeaderLines, g.kv = s.kv ∧ KeyAfter g k ∧
      p = g.bytes ++ (k ++ [COLON, SPACE])
  | .value k v => ∃ g : HeaderLines, g.kv = s.kv ∧ KeyAfter g k ∧ IsValue v ∧
      p = g.bytes ++ (k ++ ([COLON, SPACE] ++ v))
  | .cr k v => ∃ g : HeaderLines, g.kv = s.kv ∧ KeyAfter g k ∧ IsValue v ∧
      p = g.bytes ++ (k ++ ([COLON, SPACE] ++ (v ++ [CR])))
  | .lf => ∃ g : HeaderLines, g.kv = s.kv ∧ g.lines ≠ [] ∧ p = g.bytes
  | .endCr => ∃ g : HeaderLines, g.kv = s.kv ∧ g.lines ≠ [] ∧ p = g.bytes ++ [CR]
  | .endLf => ∃ g : Header, g.kv = s.kv ∧ p = g.bytes
  | .ended => ∃ g : Header, g.kv = s.kv ∧ ∃ c, p = g.bytes ++ [c]

theorem spells_init : Spells [] Scan.init := by
  refine ⟨?_, rfl⟩
  intro c hc
  exact absurd hc List.not_mem_nil

/-- **One byte more.** -/
theorem Spells.step {p : Bytes} {s s' : Scan} {c : UInt8} (h : Spells p s)
    (hs : scanStep s c = some s') : Spells (p ++ [c]) s' := by
  obtain ⟨phase, kv, kept⟩ := s
  cases phase with
  | start =>
    obtain ⟨hblank, hkv⟩ := h
    simp only [scanStep] at hs
    split at hs
    · next hc =>
      rw [← Option.some.inj hs]
      refine ⟨?_, hkv⟩
      intro d hd
      rcases List.mem_append.mp hd with hd | hd
      · exact hblank d hd
      · rw [List.mem_singleton.mp hd]
        exact hc
    · next hc =>
      -- the first byte that is no line break begins a key
      rw [← Option.some.inj hs]
      rw [not_or] at hc
      refine ⟨⟨p, [], hblank, by simp⟩, hkv.symm, ⟨⟨hc.2, by simp⟩, fun _ => by simpa using hc.1⟩,
        ?_⟩
      simp [HeaderLines.bytes]
  | key k =>
    obtain ⟨g, hkv, hk, rfl⟩ := h
    simp only [scanStep] at hs
    split at hs
    · next hc =>
      rw [← Option.some.inj hs, hc]
      exact ⟨g, hkv, hk, List.append_assoc ..⟩
    · next hc =>
      split at hs
      · simp at hs
      · next hd =>
        rw [← Option.some.inj hs]
        rw [not_or] at hd
        refine ⟨g, hkv, ⟨hk.isKey.concat hc hd.2 hd.1, ?_⟩, List.append_assoc ..⟩
        intro hg
        have hne : k ≠ [] := by
          rintro rfl
          exact hk.isKey
        rw [List.head?_append_of_ne_nil _ hne]
        exact hk.first hg
  | colon k =>
    obtain ⟨g, hkv, hk, rfl⟩ := h
    simp only [scanStep] at hs
    split at hs
    · next hc =>
      rw [← Option.some.inj hs, hc]
      exact ⟨g, hkv, hk, by simp⟩
    · simp at hs
  | spaces k =>
    -- any byte may begin a value
    obtain ⟨g, hkv, hk, rfl⟩ := h
    rw [← Option.some.inj hs]
    exact ⟨g, hkv, hk, ⟨by simp, by simp⟩, by simp⟩
  | value k v =>
    obtain ⟨g, hkv, hk, hv, rfl⟩ := h
    simp only [scanStep] at hs
    split at hs
    · next hc =>
      rw [← Option.some.inj hs, hc]
      exact ⟨g, hkv, hk, hv, by simp⟩
    · next hc =>
      split at hs
      · simp at hs
      · next hlen =>
        rw [← Option.some.inj hs]
        exact ⟨g, hkv, hk, hv.concat hc (by omega), by simp⟩
  | cr k v =>
    obtain ⟨g, hkv, hk, hv, rfl⟩ := h
    simp only [scanStep] at hs
    split at hs
    · next hc =>
      -- the line is whole: it joins the lines before it
      rw [← Option.some.inj hs, hc]
      refine ⟨g.add ⟨k, v, hk.isKey, hv⟩ hk.first, ?_, ?_, ?_⟩
      · rw [HeaderLines.add_kv, hkv]
      · exact List.append_ne_nil_of_right_ne_nil _ (by simp)
      · rw [HeaderLines.add_bytes]
        simp [HeaderLine.bytes]
    · simp at hs
  | lf =>
    obtain ⟨g, hkv, hne, rfl⟩ := h
    simp only [scanStep] at hs
    split at hs
    · next hc =>
      rw [← Option.some.inj hs, hc]
      exact ⟨g, hkv, hne, rfl⟩
    · next hc =>
      rw [← Option.some.inj hs]
      exact ⟨g, hkv, ⟨⟨hc, by simp⟩, fun hg => absurd hg hne⟩, rfl⟩
  | endCr =>
    obtain ⟨g, hkv, hne, rfl⟩ := h
    simp only [scanStep] at hs
    split at hs
    · next hc =>
      rw [← Option.some.inj hs, hc]
      exact ⟨⟨g, hne⟩, hkv, by simp [Header.bytes]⟩
    · simp at hs
  | endLf =>
    obtain ⟨g, hkv, rfl⟩ := h
    rw [← Option.some.inj hs]
    exact ⟨g, hkv, c, rfl⟩
  | ended => simp [scanStep] at hs

theorem scan_spells {s rest : Bytes} {s' : Scan}
    (h : headerScanner.run Scan.init s = some (s', rest)) : ∃ p, s = p ++ rest ∧ Spells p s' := by
  obtain ⟨p, hp, hs⟩ := headerScanner.run_invariant (fun _ _ _ _ h hs => Spells.step h hs)
    spells_init h
  exact ⟨p, hp, hs⟩

/-! ## The three verdicts -/

/-- A header with more bytes behind it ends where it ends. -/
theorem scan_header_append (g : Header) (t : Bytes) :
    ∃ s rest, headerScanner.run Scan.init (g.bytes ++ t) = some (s, rest) ∧ s.phase.Done ∧
      s.kv = g.kv := by
  rw [headerScanner.run_append_of_run (scan_header g)]
  cases t with
  | nil => exact ⟨_, _, rfl, trivial, rfl⟩
  | cons c t =>
    have hstep : headerScanner.step ⟨.endLf, g.kv, [LF, CR, LF]⟩ c = some ⟨.ended, g.kv, [c]⟩ := rfl
    rw [headerScanner.run_cons rfl, hstep, Option.bind_some, headerScanner.run_halted rfl]
    exact ⟨_, _, rfl, trivial, rfl⟩

/-- What ends the scanner is a header, or a header and a byte. -/
theorem Spells.done {p : Bytes} {s : Scan} (h : Spells p s) (hd : s.phase.Done) :
    ∃ g : Header, g.bytes <+: p := by
  obtain ⟨phase, kv, kept⟩ := s
  cases phase with
  | endLf =>
    obtain ⟨g, -, rfl⟩ := h
    exact ⟨g, List.prefix_rfl⟩
  | ended =>
    obtain ⟨g, -, c, rfl⟩ := h
    exact ⟨g, List.prefix_append ..⟩
  | start => exact hd.elim
  | key k => exact hd.elim
  | colon k => exact hd.elim
  | spaces k => exact hd.elim
  | value k v => exact hd.elim
  | cr k v => exact hd.elim
  | lf => exact hd.elim
  | endCr => exact hd.elim

/-- The line `A: x`. -/
def HeaderLine.sample : HeaderLine :=
  ⟨text "A", text "x", ⟨by decide, fun _ hd => absurd hd List.not_mem_nil⟩,
    ⟨by decide, by decide⟩⟩

/-- The bytes that complete a header from where the scanner is. -/
def Phase.complete : Phase → Bytes
  | .start => HeaderLine.sample.bytes ++ [CR, LF]
  | p => p.finish

/-- **Wherever the scanner is, some bytes complete the header.** -/
theorem Spells.complete {p : Bytes} {s : Scan} (h : Spells p s) (hd : ¬ s.phase.Done) :
    IsHeader (p ++ s.phase.complete) := by
  have hx : IsValue (text "x") := ⟨by decide, by decide⟩
  have line : ∀ {g : HeaderLines} {k v : Bytes}, KeyAfter g k → IsValue v →
      IsHeader (g.bytes ++ (k ++ ([COLON, SPACE] ++ (v ++ [CR, LF, CR, LF])))) := by
    intro g k v hk hv
    refine ⟨⟨g.add ⟨k, v, hk.isKey, hv⟩ hk.first,
      List.append_ne_nil_of_right_ne_nil _ (by simp)⟩, ?_⟩
    rw [Header.bytes, HeaderLines.add_bytes]
    simp [HeaderLine.bytes]
  obtain ⟨phase, kv, kept⟩ := s
  cases phase with
  | start =>
    refine ⟨⟨⟨p, [.sample], h.1, ?_⟩, by simp⟩,
      by simp [Header.bytes, HeaderLines.bytes, Phase.complete]⟩
    intro l hl
    rw [← Option.some.inj hl]
    decide
  | key k =>
    obtain ⟨g, -, hk, rfl⟩ := h
    rw [List.append_assoc]
    exact line hk hx
  | colon k =>
    obtain ⟨g, -, hk, rfl⟩ := h
    rw [List.append_assoc, List.append_assoc]
    exact line hk hx
  | spaces k =>
    obtain ⟨g, -, hk, rfl⟩ := h
    rw [List.append_assoc, List.append_assoc]
    exact line hk hx
  | value k v =>
    obtain ⟨g, -, hk, hv, rfl⟩ := h
    have hline := line hk hv
    simp only [List.append_assoc] at hline ⊢
    exact hline
  | cr k v =>
    obtain ⟨g, -, hk, hv, rfl⟩ := h
    have hline := line hk hv
    simp only [List.append_assoc] at hline ⊢
    exact hline
  | lf =>
    obtain ⟨g, -, hne, rfl⟩ := h
    exact ⟨⟨g, hne⟩, rfl⟩
  | endCr =>
    obtain ⟨g, -, hne, rfl⟩ := h
    exact ⟨⟨g, hne⟩, (List.append_assoc g.bytes [CR] [LF]).symm⟩
  | endLf => exact absurd trivial hd
  | ended => exact absurd trivial hd

/--
**`ParseHeaders` accepts the grammar.** One call from the beginning of a header succeeds if and only
if the bytes begin with a header; it asks for more if and only if they do not, but go on to one; and
it fails otherwise. When they begin with a header, the map holds under each key the value of the
last line with that key, and nothing else.
-/
theorem parseHeaders_grammar (before : UInt8) (h : Http) (s : Bytes) :
    ((parseHeaders before (h.atHeader s)).1 = .parseHeaderSuccess ↔ ∃ p, p <+: s ∧ IsHeader p) ∧
      ((parseHeaders before (h.atHeader s)).1 = .parseHeaderAgain ↔
        (¬ ∃ p, p <+: s ∧ IsHeader p) ∧ ∃ t, IsHeader (s ++ t)) ∧
      ((parseHeaders before (h.atHeader s)).1 = .parseHeaderError ↔
        (¬ ∃ p, p <+: s ∧ IsHeader p) ∧ ¬ ∃ t, IsHeader (s ++ t)) ∧
      ∀ g : Header, g.bytes <+: s → ∀ key, (parseHeaders before (h.atHeader s)).2.headerKv key =
        (g.lines.reverse.find? (·.key = key)).map HeaderLine.value := by
  -- a header in front ends the scanner
  have hheader : ∀ p, p <+: s → IsHeader p → ∃ s' rest,
      headerScanner.run Scan.init s = some (s', rest) ∧ s'.phase.Done := by
    rintro p ⟨t, rfl⟩ ⟨g, rfl⟩
    obtain ⟨s', rest, hr, hd, -⟩ := scan_header_append g t
    exact ⟨s', rest, hr, hd⟩
  rcases parseHeaders_atHeader before h s with ⟨hr, he⟩ | ⟨s', rest, hr, he⟩
  · -- a refused byte is refused however the bytes go on
    have hno : ¬ ∃ p, p <+: s ∧ IsHeader p := by
      rintro ⟨p, hp, hh⟩
      obtain ⟨s', rest, hr', -⟩ := hheader p hp hh
      rw [hr] at hr'
      simp at hr'
    have hdead : ¬ ∃ t, IsHeader (s ++ t) := by
      rintro ⟨t, g, hg⟩
      have := scan_header g
      rw [hg, headerScanner.run_append_none hr] at this
      simp at this
    rw [he]
    refine ⟨iff_of_false (by simp) hno, iff_of_false (by simp) fun h => hdead h.2,
      iff_of_true rfl ⟨hno, hdead⟩, ?_⟩
    intro g hg
    exact absurd ⟨g.bytes, hg, g, rfl⟩ hno
  · obtain ⟨p, hp, hspells⟩ := scan_spells hr
    rw [he]
    by_cases hd : s'.phase.Done
    · obtain ⟨g, hg⟩ := hspells.done hd
      have hyes : ∃ q, q <+: s ∧ IsHeader q :=
        ⟨g.bytes, hg.trans (hp ▸ List.prefix_append ..), g, rfl⟩
      rw [headerResult_done hd]
      refine ⟨iff_of_true rfl hyes, iff_of_false (by simp) fun h => h.1 hyes,
        iff_of_false (by simp) fun h => h.1 hyes, ?_⟩
      rintro g ⟨t, rfl⟩ key
      obtain ⟨s₁, rest₁, hr₁, -, hkv⟩ := scan_header_append g t
      rw [hr, Option.some.injEq, Prod.mk.injEq] at hr₁
      show s'.kv key = _
      rw [hr₁.1, hkv, HeaderLines.kv, storeLines_apply]
      simp [HeaderMap.empty]
    · have hno : ¬ ∃ p, p <+: s ∧ IsHeader p := by
        rintro ⟨q, hq, hh⟩
        obtain ⟨s₁, rest₁, hr₁, hd₁⟩ := hheader q hq hh
        rw [hr, Option.some.injEq, Prod.mk.injEq] at hr₁
        exact hd (hr₁.1 ▸ hd₁)
      have hrest : rest = [] := by
        rcases headerScanner.run_rest hr with hnil | hended
        · exact hnil
        · exact absurd (by rw [headerScanner_halted.mp hended]; trivial) hd
      rw [hrest, List.append_nil] at hp
      have hmore : ∃ t, IsHeader (s ++ t) := ⟨_, hp ▸ hspells.complete hd⟩
      rw [headerResult, if_neg hd]
      refine ⟨iff_of_false (by simp) hno, iff_of_true rfl ⟨hno, hmore⟩,
        iff_of_false (by simp) fun h => h.2 hmore, ?_⟩
      intro g hg
      exact absurd ⟨g.bytes, hg, g, rfl⟩ hno

end FlashWeb
