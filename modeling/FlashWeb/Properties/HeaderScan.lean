import FlashWeb.Lib.Scanner
import FlashWeb.Http.ParseHeaders

/-!
# `ParseHeaders` as a scanner

What the header automaton means, without indices: a scanner whose state holds the bytes of the key
and of the value read so far, the map, and the bytes that a call returning `PARSE_HEADER_AGAIN`
leaves in the buffer. `parseHeaders_eq` says that one call of `ParseHeaders` is one run of the
scanner, from the state that `resume` gives for `header_line_state`.

`resume` is where the loss of the indices shows. A call that starts in the middle of a line has
read none of it: its key and value are empty, or hold the one byte in front of the buffer.
-/

namespace FlashWeb

open Lib

/-! ## The scanner -/

/-- Where the scanner is in the header, with the parts of the line it has read. -/
inductive Phase where
  | start
  | key (k : Bytes)
  | colon (k : Bytes)
  | spaces (k : Bytes)
  | value (k v : Bytes)
  | cr (k v : Bytes)
  | lf
  | endCr
  | endLf
  /-- one byte after the empty line has been read as well -/
  | ended

/-- The state of the source's automaton in this phase. -/
def Phase.state : Phase → HeaderLineState
  | .start => .hStart
  | .key _ => .hKey
  | .colon _ => .hColon
  | .spaces _ => .hSpacesAfterColon
  | .value _ _ => .hValue
  | .cr _ _ => .hCr
  | .lf => .hLf
  | .endCr => .hEndCr
  | .endLf => .hEndLf
  | .ended => .hEndLf

structure Scan where
  phase : Phase
  kv : HeaderMap
  /-- the bytes from `now_read_line_begin` on -/
  kept : Bytes

/-- Go to `p`, keeping the byte just read. -/
def Scan.go (s : Scan) (p : Phase) (c : UInt8) : Scan :=
  { s with phase := p, kept := s.kept ++ [c] }

def scanStep (s : Scan) (c : UInt8) : Option Scan :=
  match s.phase with
  | .start =>
    if c = LF ∨ c = CR then some (s.go .start c)
    else some { s with phase := .key [c], kept := [c] }
  | .key k =>
    if c = COLON then some (s.go (.colon k) c)
    else if c = LF ∨ c = CR then none
    else some (s.go (.key (k ++ [c])) c)
  | .colon k => if c = SPACE then some (s.go (.spaces k) c) else none
  | .spaces k => some (s.go (.value k [c]) c)
  | .value k v =>
    if c = CR then some (s.go (.cr k v) c)
    else if v.length > 255 then none
    else some (s.go (.value k (v ++ [c])) c)
  | .cr k v => if c = LF then some ⟨.lf, s.kv.set k v, [c]⟩ else none
  | .lf => if c = CR then some (s.go .endCr c) else some (s.go (.key [c]) c)
  | .endCr => if c = LF then some (s.go .endLf c) else none
  | .endLf => some { s with phase := .ended, kept := [c] }
  | .ended => none

/-- The scanner of a header. -/
def headerScanner : Scanner UInt8 Scan where
  step := scanStep
  halted s := match s.phase with | .ended => true | _ => false

theorem headerScanner_halted {s : Scan} : headerScanner.halted s = true ↔ s.phase = .ended := by
  obtain ⟨phase, kv, kept⟩ := s
  cases phase <;> simp [headerScanner]

/-- Whether the header ended. -/
def Phase.Done : Phase → Prop
  | .endLf => True
  | .ended => True
  | _ => False

instance (p : Phase) : Decidable p.Done := by
  cases p <;> unfold Phase.Done <;> infer_instance

theorem Phase.done_iff (p : Phase) : p.Done ↔ p.state = .hEndLf := by
  cases p <;> simp [Phase.Done, Phase.state]

/-- What a new call knows of a line that an earlier call began. -/
def resume (before : UInt8) : HeaderLineState → Phase
  | .hStart => .start
  | .hKey => .key [before]
  | .hColon => .colon []
  | .hSpacesAfterColon => .spaces []
  | .hValue => .value [] [before]
  | .hCr => .cr [] []
  | .hLf => .lf
  | .hEndCr => .endCr
  | .hEndLf => .endLf

/-- The scanner at the beginning of a call of `ParseHeaders`. -/
def Scan.enter (before : UInt8) (h : Http) : Scan :=
  ⟨resume before h.headerLineState, h.headerKv, []⟩

/-! ## Ranges of the buffer -/

theorem range_self (before : UInt8) (str : Bytes) (a : Int) : range before str a a = [] := by
  simp [range]

/-- A range grows by the byte at its end. -/
theorem range_succ {before : UInt8} {p rest : Bytes} {c : UInt8} {a : Int} (ha : -1 ≤ a)
    (hap : a ≤ p.length) :
    range before (p ++ c :: rest) a (p.length + 1) =
      range before (p ++ c :: rest) a p.length ++ [c] := by
  unfold range
  obtain ⟨n, hn⟩ : ∃ n : Nat, a + 1 = n := ⟨(a + 1).toNat, by omega⟩
  have h1 : ((p.length : Int) + 1 - a).toNat = (p.length + 1 - n) + 1 := by omega
  have h2 : ((p.length : Int) - a).toNat = p.length + 1 - n := by omega
  rw [h1, h2, hn, Int.toNat_natCast, List.take_add_one]
  congr 1
  rw [List.getElem?_drop, show n + (p.length + 1 - n) = p.length + 1 by omega]
  simp

/-- A field that begins at the byte just read. -/
theorem range_begin {before : UInt8} {p rest : Bytes} {c : UInt8} {i : Nat} (hi : i = p.length) :
    -1 ≤ (i : Int) ∧ (i : Int) < (p ++ [c]).length ∧
      [c] = range before (p ++ c :: rest) i (p ++ [c]).length := by
  have hlen : (p ++ [c]).length = p.length + 1 := by simp
  refine ⟨by omega, by omega, ?_⟩
  rw [hi, hlen]
  push_cast
  rw [range_succ (by omega) (Int.le_refl _), range_self]
  rfl

/-- A field that goes on with the byte just read. -/
theorem range_grow {before : UInt8} {p rest v : Bytes} {c : UInt8} {a : Int} (ha : -1 ≤ a)
    (hap : a < p.length) (hv : v = range before (p ++ c :: rest) a p.length) :
    -1 ≤ a ∧ a < (p ++ [c]).length ∧
      v ++ [c] = range before (p ++ c :: rest) a (p ++ [c]).length := by
  have hlen : (p ++ [c]).length = p.length + 1 := by simp
  refine ⟨ha, by omega, ?_⟩
  rw [hlen]
  push_cast
  rw [range_succ ha (by omega), ← hv]

theorem length_range {before : UInt8} {str : Bytes} {a b : Int} (ha : -1 ≤ a) (hab : a ≤ b)
    (hb : b ≤ str.length) : ((range before str a b).length : Int) = b - a := by
  unfold range
  simp only [List.length_take, List.length_drop, List.length_cons]
  omega

/-! ## The loop is the scanner -/

/-- What the indices of the loop say about the phase, after the bytes `p` of `str`. -/
def Indexed (before : UInt8) (str p : Bytes) (l : HeaderLoop) : Phase → Prop
  | .key k => -1 ≤ l.keyStart ∧ l.keyStart < p.length ∧ k = range before str l.keyStart p.length
  | .colon k => k = range before str l.keyStart l.keyEnd
  | .spaces k => k = range before str l.keyStart l.keyEnd
  | .value k v => k = range before str l.keyStart l.keyEnd ∧
      -1 ≤ l.valueStart ∧ l.valueStart < p.length ∧ v = range before str l.valueStart p.length
  | .cr k v => k = range before str l.keyStart l.keyEnd ∧
      v = range before str l.valueStart l.valueEnd
  | _ => True

/-- The loop after the bytes `p` of `str` and the scanner are in the same place. -/
structure Agree (before : UInt8) (str p : Bytes) (l : HeaderLoop) (s : Scan) : Prop where
  i : l.i = p.length
  state : l.headerLineState = s.phase.state
  kv : l.headerKv = s.kv
  notFinish : l.notFinish = !headerScanner.halted s
  kept : s.kept = p.drop l.nowReadLineBegin
  keptLe : l.nowReadLineBegin ≤ p.length
  indexed : Indexed before str p l s.phase

theorem agree_enter (before : UInt8) (h : Http) :
    Agree before h.readBuffer [] (HeaderLoop.enter h) (Scan.enter before h) where
  i := rfl
  state := by
    show h.headerLineState = (resume before h.headerLineState).state
    cases h.headerLineState <;> rfl
  kv := rfl
  notFinish := by
    show true = !headerScanner.halted (Scan.enter before h)
    unfold headerScanner Scan.enter
    cases h.headerLineState <;> rfl
  kept := rfl
  keptLe := Nat.le_refl _
  indexed := by
    show Indexed before h.readBuffer [] (HeaderLoop.enter h) (resume before h.headerLineState)
    cases h.headerLineState <;>
      simp [resume, Indexed, HeaderLoop.enter, range]

/-- The bytes kept when the line does not begin anew. -/
theorem Agree.kept_go {before : UInt8} {str p : Bytes} {l : HeaderLoop} {s : Scan}
    (h : Agree before str p l s) (c : UInt8) :
    s.kept ++ [c] = (p ++ [c]).drop l.nowReadLineBegin := by
  rw [List.drop_append_of_le_length h.keptLe, h.kept]

/-- The bytes kept when the line begins at the byte just read. -/
theorem kept_begin {p : Bytes} {i : Nat} (hi : i = p.length) (c : UInt8) :
    [c] = (p ++ [c]).drop i ∧ i ≤ (p ++ [c]).length := by
  rw [hi]
  simp

/-- **One byte takes the loop and the scanner to the same place, or both refuse it.** -/
theorem headerStep_agree {before : UInt8} {p rest : Bytes} {c : UInt8} {l : HeaderLoop} {s : Scan}
    (h : Agree before (p ++ c :: rest) p l s) (hh : headerScanner.halted s = false) :
    (scanStep s c = none ∧ ∃ l', headerStep before (p ++ c :: rest) c l = .error l') ∨
      ∃ s' l', scanStep s c = some s' ∧ headerStep before (p ++ c :: rest) c l = .ok l' ∧
        Agree before (p ++ c :: rest) (p ++ [c]) { l' with i := l'.i + 1 } s' := by
  have hlen : (p ++ [c]).length = p.length + 1 := by simp
  have hgo := h.kept_go c
  have hle : l.nowReadLineBegin ≤ (p ++ [c]).length := by
    have := h.keptLe
    omega
  have hi : l.i + 1 = (p ++ [c]).length := by rw [h.i, hlen]
  obtain ⟨phase, kv, kept⟩ := s
  have hstate := h.state
  have hidx := h.indexed
  have hkv := h.kv
  have hnf : l.notFinish = true := by rw [h.notFinish, hh]; rfl
  dsimp only at hstate hidx hkv hgo
  unfold scanStep headerStep
  rw [hstate]
  obtain ⟨hkept, hkeptLe⟩ := kept_begin h.i c
  cases phase with
  | start =>
    dsimp only [Phase.state]
    by_cases hc : c = LF ∨ c = CR
    · rw [if_pos hc, if_pos hc]
      exact Or.inr ⟨_, _, rfl, rfl, hi, hstate, hkv, hnf, hgo, hle, trivial⟩
    · -- the first key, and with it what is kept, begins here
      rw [if_neg hc, if_neg hc]
      exact Or.inr ⟨_, _, rfl, rfl, hi, rfl, hkv, hnf, hkept, hkeptLe, range_begin h.i⟩
  | key k =>
    obtain ⟨h1, h2, h3⟩ := hidx
    dsimp only [Phase.state]
    by_cases hc : c = COLON
    · -- the key is not empty, so the check of the two indices passes
      rw [if_pos hc, if_pos hc, if_neg (by rw [h.i]; omega)]
      refine Or.inr ⟨_, _, rfl, rfl, hi, rfl, hkv, hnf, hgo, hle, ?_⟩
      show k = range before _ l.keyStart l.i
      rw [h.i]
      exact h3
    · rw [if_neg hc, if_neg hc]
      by_cases hd : c = LF ∨ c = CR
      · rw [if_pos hd, if_pos hd]
        exact Or.inl ⟨rfl, _, rfl⟩
      · rw [if_neg hd, if_neg hd]
        exact Or.inr ⟨_, _, rfl, rfl, hi, hstate, hkv, hnf, hgo, hle, range_grow h1 h2 h3⟩
  | colon k =>
    dsimp only [Phase.state]
    by_cases hc : c = SPACE
    · rw [if_pos hc, if_pos hc]
      exact Or.inr ⟨_, _, rfl, rfl, hi, rfl, hkv, hnf, hgo, hle, hidx⟩
    · rw [if_neg hc, if_neg hc]
      exact Or.inl ⟨rfl, _, rfl⟩
  | spaces k =>
    -- whatever the byte is, the value begins with it
    dsimp only [Phase.state]
    exact Or.inr ⟨_, _, rfl, rfl, hi, rfl, hkv, hnf, hgo, hle, hidx, range_begin h.i⟩
  | value k v =>
    obtain ⟨h0, h1, h2, h3⟩ := hidx
    -- the loop checks the length of the value by its indices
    have hv : (v.length : Int) = l.i - l.valueStart := by
      rw [h3, length_range h1 (by omega) (by simp; omega), h.i]
    dsimp only [Phase.state]
    by_cases hc : c = CR
    · rw [if_pos hc, if_pos hc, if_neg (by rw [h.i]; omega)]
      refine Or.inr ⟨_, _, rfl, rfl, hi, rfl, hkv, hnf, hgo, hle, h0, ?_⟩
      show v = range before _ l.valueStart l.i
      rw [h.i]
      exact h3
    · rw [if_neg hc, if_neg hc]
      by_cases hd : v.length > 255
      · rw [if_pos hd, if_pos (by omega)]
        exact Or.inl ⟨rfl, _, rfl⟩
      · rw [if_neg hd, if_neg (by omega)]
        exact Or.inr ⟨_, _, rfl, rfl, hi, hstate, hkv, hnf, hgo, hle, h0, range_grow h1 h2 h3⟩
  | cr k v =>
    obtain ⟨h1, h2⟩ := hidx
    dsimp only [Phase.state]
    by_cases hc : c = LF
    · -- the line is stored, and what is kept begins at its line feed
      rw [if_pos hc, if_pos hc]
      refine Or.inr ⟨_, _, rfl, rfl, hi, rfl, ?_, hnf, hkept, hkeptLe, trivial⟩
      show l.headerKv.set _ _ = kv.set k v
      rw [hkv, h1, h2]
    · rw [if_neg hc, if_neg hc]
      exact Or.inl ⟨rfl, _, rfl⟩
  | lf =>
    dsimp only [Phase.state]
    by_cases hc : c = CR
    · rw [if_pos hc, if_pos hc]
      exact Or.inr ⟨_, _, rfl, rfl, hi, rfl, hkv, hnf, hgo, hle, trivial⟩
    · -- the next key begins here, but what is kept began at the line feed
      rw [if_neg hc, if_neg hc]
      exact Or.inr ⟨_, _, rfl, rfl, hi, rfl, hkv, hnf, hgo, hle, range_begin h.i⟩
  | endCr =>
    dsimp only [Phase.state]
    by_cases hc : c = LF
    · rw [if_pos hc, if_pos hc]
      exact Or.inr ⟨_, _, rfl, rfl, hi, rfl, hkv, hnf, hgo, hle, trivial⟩
    · rw [if_neg hc, if_neg hc]
      exact Or.inl ⟨rfl, _, rfl⟩
  | endLf =>
    dsimp only [Phase.state]
    exact Or.inr ⟨_, _, rfl, rfl, hi, rfl, hkv, rfl, hkept, hkeptLe, trivial⟩
  | ended => simp [headerScanner] at hh

/-- **Reading on, the loop and the scanner stay in the same place**; `t` is what is not read. -/
theorem headerLoop_agree {before : UInt8} {str : Bytes} (t : Bytes) : ∀ (w p : Bytes)
    (l : HeaderLoop) (s : Scan), str = p ++ (w ++ t) → Agree before str p l s →
    (headerScanner.run s w = none ∧ ∃ l', headerLoop before str w l = .error l') ∨
      ∃ s' rest l' q, headerScanner.run s w = some (s', rest) ∧
        headerLoop before str w l = .ok l' ∧ str = q ++ (rest ++ t) ∧ Agree before str q l' s'
  | [], p, l, s, hstr, h => Or.inr ⟨s, [], l, p, rfl, rfl, hstr, h⟩
  | c :: w, p, l, s, hstr, h => by
    cases hh : headerScanner.halted s with
    | true =>
      have hnf : l.notFinish = false := by rw [h.notFinish, hh]; rfl
      refine Or.inr ⟨s, c :: w, l, p, headerScanner.run_halted hh _, ?_, hstr, h⟩
      rw [headerLoop, if_neg (by simp [hnf])]
    | false =>
      have hnf : l.notFinish = true := by rw [h.notFinish, hh]; rfl
      rw [headerLoop, if_pos hnf, headerScanner.run_cons hh]
      rw [hstr, List.cons_append] at h
      rcases headerStep_agree h hh with ⟨hs, l', hl⟩ | ⟨s', l', hs, hl, hagree⟩
      · rw [← List.cons_append, ← hstr] at hl
        refine Or.inl ⟨?_, l', by rw [hl]⟩
        show (scanStep s c).bind _ = none
        rw [hs, Option.bind_none]
      · rw [← List.cons_append, ← hstr] at hl hagree
        rw [show headerScanner.step s c = some s' from hs, hl, Option.bind_some]
        exact headerLoop_agree t w (p ++ [c]) _ s' (by rw [hstr]; simp) hagree

/-- What `ParseHeaders` returns when the scanner ends in `s` with `rest` unread. -/
def headerResult (h : Http) (s : Scan) (rest : Bytes) : ParseHeaderState × Http :=
  if s.phase.Done then
    (.parseHeaderSuccess,
      { h with readBuffer := rest, headerLineState := .hEndLf, headerKv := s.kv })
  else
    (.parseHeaderAgain,
      { h with readBuffer := s.kept, headerLineState := s.phase.state, headerKv := s.kv })

/-- **One call of `ParseHeaders` is one run of the scanner.** -/
theorem parseHeaders_eq (before : UInt8) (h : Http) :
    (headerScanner.run (Scan.enter before h) h.readBuffer = none ∧
        (parseHeaders before h).1 = .parseHeaderError) ∨
      ∃ s rest, headerScanner.run (Scan.enter before h) h.readBuffer = some (s, rest) ∧
        parseHeaders before h = headerResult h s rest := by
  unfold parseHeaders headerResult
  rcases headerLoop_agree [] h.readBuffer [] _ _ (List.append_nil h.readBuffer).symm
      (agree_enter before h) with
    ⟨hr, l', hl⟩ | ⟨s, rest, l', q, hr, hl, hstr, hagree⟩
  · exact Or.inl ⟨hr, by rw [hl]⟩
  · refine Or.inr ⟨s, rest, hr, ?_⟩
    rw [hl]
    rw [List.append_nil] at hstr
    dsimp only
    by_cases hd : s.phase.Done
    · have hst : l'.headerLineState = .hEndLf := hagree.state.trans (s.phase.done_iff.mp hd)
      rw [if_pos hd, if_pos hst, hst, hagree.kv, hagree.i]
      congr 2
      rw [hstr, List.drop_left']
      rfl
    · have hst : l'.headerLineState ≠ .hEndLf :=
        fun he => hd (s.phase.done_iff.mpr (hagree.state.symm.trans he))
      have hrest : rest = [] := by
        rcases headerScanner.run_rest hr with hnil | hended
        · exact hnil
        · exact absurd (by rw [headerScanner_halted.mp hended]; trivial) hd
      rw [if_neg hd, if_neg hst, hagree.state, hagree.kv, hagree.kept]
      congr 2
      rw [hstr, hrest, List.append_nil]

/-- The call when the scanner reads the buffer. -/
theorem parseHeaders_of_scan {before : UInt8} {h : Http} {s : Scan} {rest : Bytes}
    (hr : headerScanner.run (Scan.enter before h) h.readBuffer = some (s, rest)) :
    parseHeaders before h = headerResult h s rest := by
  rcases parseHeaders_eq before h with ⟨hn, -⟩ | ⟨s', rest', hr', he⟩
  · rw [hr] at hn
    simp at hn
  · rw [hr, Option.some.injEq, Prod.mk.injEq] at hr'
    rw [he, ← hr'.1, ← hr'.2]

/-- The call when the scanner refuses a byte of the buffer. -/
theorem parseHeaders_of_refused {before : UInt8} {h : Http}
    (hr : headerScanner.run (Scan.enter before h) h.readBuffer = none) :
    (parseHeaders before h).1 = .parseHeaderError := by
  rcases parseHeaders_eq before h with ⟨-, he⟩ | ⟨s, rest, hr', -⟩
  · exact he
  · rw [hr] at hr'
    simp at hr'

end FlashWeb
