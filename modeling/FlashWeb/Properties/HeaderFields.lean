import FlashWeb.Properties.HeaderGrammar

/-!
# What can stand in a header field

The lines that `ParseHeaders` stores are the whole lines at the beginning of its input
(`stores_iff`). Their fields are free of line breaks as far as `H_KEY` and `H_VALUE` look, and these
states look at every byte of a field but the first, and never for a line feed in a value.
-/

namespace FlashWeb

open Lib

/-! ## The fields that are stored -/

/-- After some of the bytes of `s`, `header_kv_` holds `value` under `key`. -/
def Stores (before : UInt8) (h : Http) (s key value : Bytes) : Prop :=
  ∃ n l, headerLoop before s (s.take n) (HeaderLoop.enter (h.atHeader s)) = .ok l ∧
    l.headerKv key = some value

/-- In every phase the map holds the whole lines that have been read. -/
theorem Spells.lines {p : Bytes} {s : Scan} (h : Spells p s) :
    ∃ g : HeaderLines, g.kv = s.kv ∧ g.bytes <+: p := by
  obtain ⟨phase, kv, kept⟩ := s
  cases phase with
  | start =>
    refine ⟨⟨p, [], h.1, by simp⟩, h.2.symm, ?_⟩
    simp [HeaderLines.bytes]
  | key k => obtain ⟨g, hkv, -, rfl⟩ := h; exact ⟨g, hkv, List.prefix_append ..⟩
  | colon k => obtain ⟨g, hkv, -, rfl⟩ := h; exact ⟨g, hkv, List.prefix_append ..⟩
  | spaces k => obtain ⟨g, hkv, -, rfl⟩ := h; exact ⟨g, hkv, List.prefix_append ..⟩
  | value k v => obtain ⟨g, hkv, -, -, rfl⟩ := h; exact ⟨g, hkv, List.prefix_append ..⟩
  | cr k v => obtain ⟨g, hkv, -, -, rfl⟩ := h; exact ⟨g, hkv, List.prefix_append ..⟩
  | lf => obtain ⟨g, hkv, -, rfl⟩ := h; exact ⟨g, hkv, List.prefix_rfl⟩
  | endCr => obtain ⟨g, hkv, -, rfl⟩ := h; exact ⟨g, hkv, List.prefix_append ..⟩
  | endLf => obtain ⟨g, hkv, rfl⟩ := h; exact ⟨g.toHeaderLines, hkv, List.prefix_append ..⟩
  | ended =>
    obtain ⟨g, hkv, c, rfl⟩ := h
    exact ⟨g.toHeaderLines, hkv, (List.prefix_append ..).trans (List.prefix_append ..)⟩

/-- The loop has read as much as the scanner. -/
theorem headerLoop_scan (before : UInt8) (h : Http) (p t : Bytes) :
    (headerScanner.run Scan.init p = none ∧ ∃ l, headerLoop before (p ++ t) p
        (HeaderLoop.enter (h.atHeader (p ++ t))) = .error l) ∨
      ∃ s rest l, headerScanner.run Scan.init p = some (s, rest) ∧
        headerLoop before (p ++ t) p (HeaderLoop.enter (h.atHeader (p ++ t))) = .ok l ∧
        l.headerKv = s.kv := by
  rcases headerLoop_agree t p [] _ _ (List.nil_append (p ++ t)).symm
      (agree_enter before (h.atHeader (p ++ t))) with
    ⟨hr, hl⟩ | ⟨s, rest, l, q, hr, hl, -, hagree⟩
  · exact Or.inl ⟨hr, hl⟩
  · exact Or.inr ⟨s, rest, l, hr, hl, hagree.kv⟩

/-- The lines of `g` up to `l`. -/
theorem HeaderLines.exists_upTo (g : HeaderLines) {l : HeaderLine} (hl : l ∈ g.lines) :
    ∃ g' : HeaderLines, g'.lines ≠ [] ∧ g'.bytes <+: g.bytes ∧ g'.kv l.key = some l.value := by
  obtain ⟨as, bs, hsplit⟩ := List.append_of_mem hl
  refine ⟨⟨g.breaks, as ++ [l], g.blank, ?_⟩, by simp, ?_, ?_⟩
  · have hfirst := g.first
    rw [hsplit] at hfirst
    cases as <;> exact hfirst
  · refine ⟨bs.flatMap HeaderLine.bytes, ?_⟩
    simp [HeaderLines.bytes, hsplit]
  · simp [HeaderLines.kv, storeLines]

/-- **What is stored are the fields of the whole lines.** -/
theorem stores_iff (before : UInt8) (h : Http) (s key value : Bytes) :
    Stores before h s key value ↔ ∃ g : HeaderLines, g.bytes <+: s ∧
      ∃ l ∈ g.lines, l.key = key ∧ l.value = value := by
  constructor
  · rintro ⟨n, l, hloop, hkv⟩
    have hscan := headerLoop_scan before h (s.take n) (s.drop n)
    rw [List.take_append_drop, hloop] at hscan
    rcases hscan with ⟨-, l', hl'⟩ | ⟨s', rest, l', hr, hl', hkv'⟩
    · simp at hl'
    · rw [← Except.ok.inj hl'] at hkv'
      obtain ⟨p, hp, hspells⟩ := scan_spells hr
      obtain ⟨g, hg, hgp⟩ := hspells.lines
      have hgs : g.bytes <+: s := (hgp.trans ⟨rest, hp.symm⟩).trans (List.take_prefix n s)
      rw [hkv', ← hg, HeaderLines.kv, storeLines_apply] at hkv
      -- the entry comes from the last line with that key
      obtain ⟨line, hfind, hvalue⟩ : ∃ line, g.lines.reverse.find? (·.key = key) = some line ∧
          line.value = value := by simpa [HeaderMap.empty] using hkv
      refine ⟨g, hgs, line, ?_, by simpa using List.find?_some hfind, hvalue⟩
      exact List.mem_reverse.mp (List.mem_of_find?_eq_some hfind)
  · rintro ⟨g, hgs, l, hl, rfl, rfl⟩
    obtain ⟨g', hne, hg', hkv⟩ := g.exists_upTo hl
    obtain ⟨t, rfl⟩ := hg'.trans hgs
    have hrun := scan_headerLines g' hne []
    rw [List.append_nil, headerScanner.run_nil] at hrun
    rcases headerLoop_scan before h g'.bytes t with ⟨hr, -⟩ | ⟨s', rest, l', hr, hloop, hkv'⟩
    · rw [hrun] at hr
      simp at hr
    · rw [hrun, Option.some.injEq, Prod.mk.injEq] at hr
      refine ⟨g'.bytes.length, l', by rw [List.take_left' rfl]; exact hloop, ?_⟩
      rw [hkv', ← hr.1]
      exact hkv

/-! ## Line breaks in a field -/

/-- No colon and no line break in the key, and no line break in the value. -/
structure CleanField (key value : Bytes) : Prop where
  key : ∀ c ∈ key, c ≠ COLON ∧ c ≠ CR ∧ c ≠ LF
  value : ∀ c ∈ value, c ≠ CR ∧ c ≠ LF

/--
A line whose key does not begin with a colon or a line feed, whose value does not begin with a
carriage return, and whose value holds no line feed.
-/
structure HeaderLine.Proper (l : HeaderLine) : Prop where
  colon : l.key.head? ≠ some COLON
  lf : l.key.head? ≠ some LF
  cr : l.value.head? ≠ some CR
  noLf : LF ∉ l.value

/-- The other bytes of the fields were looked at when they were read. -/
theorem HeaderLine.cleanField_iff (l : HeaderLine) : CleanField l.key l.value ↔ l.Proper := by
  obtain ⟨key, value, hkey, hvalue⟩ := l
  cases key with
  | nil => exact hkey.elim
  | cons c t =>
    cases value with
    | nil => exact hvalue.elim
    | cons d u =>
      constructor
      · intro h
        obtain ⟨hcolon, -, hlf⟩ := h.key c List.mem_cons_self
        exact ⟨by simpa using hcolon, by simpa using hlf,
          by simpa using (h.value d List.mem_cons_self).1, fun hmem => (h.value LF hmem).2 rfl⟩
      · intro h
        constructor
        · intro e he
          rcases List.mem_cons.mp he with rfl | he
          · exact ⟨by simpa using h.colon, hkey.1, by simpa using h.lf⟩
          · exact hkey.2 e he
        · intro e he
          refine ⟨?_, fun hlf => h.noLf (hlf ▸ he)⟩
          rcases List.mem_cons.mp he with rfl | he
          · simpa using h.cr
          · exact fun hcr => hvalue.1 (hcr ▸ he)

/--
**When the stored fields hold no line breaks.** If and only if none of the whole lines at the
beginning of the bytes has a colon or a line feed for the first byte of its key, a carriage return
for the first byte of its value, or a line feed in its value.
-/
theorem stored_fields_clean (before : UInt8) (h : Http) (s : Bytes) :
    (∀ key value, Stores before h s key value → CleanField key value) ↔
      ∀ g : HeaderLines, g.bytes <+: s → ∀ l ∈ g.lines, l.Proper := by
  constructor
  · intro hclean g hg l hl
    exact l.cleanField_iff.mp
      (hclean l.key l.value ((stores_iff before h s _ _).mpr ⟨g, hg, l, hl, rfl, rfl⟩))
  · intro hproper key value hstores
    obtain ⟨g, hg, l, hl, rfl, rfl⟩ := (stores_iff before h s key value).mp hstores
    exact l.cleanField_iff.mpr (hproper g hg l hl)

/-- An empty value swallows the line break and the line behind it. -/
theorem empty_value_not_clean :
    (parseHeaders 0 ((Http.construct true).atHeader (text "A: \r\nB: c\r\n\r\n"))).1 =
        .parseHeaderSuccess ∧
      (parseHeaders 0 ((Http.construct true).atHeader (text "A: \r\nB: c\r\n\r\n"))).2.headerKv
        (text "A") = some (text "\r\nB: c") ∧
      ¬ ∀ key value, Stores 0 (Http.construct true) (text "A: \r\nB: c\r\n\r\n") key value →
        CleanField key value := by
  refine ⟨by decide, by decide, ?_⟩
  intro hclean
  have hstores : Stores 0 (Http.construct true) (text "A: \r\nB: c\r\n\r\n") (text "A")
      (text "\r\nB: c") := ⟨14, _, rfl, by decide⟩
  exact absurd ((hclean _ _ hstores).value CR (by decide)).1 (by decide)

end FlashWeb
