import Mathlib.Data.List.Basic

/-!
# Byte strings

What the server keeps in a `std::string`. A byte is a `UInt8` and a string is the list of its
bytes. `find` and `substr` follow `std::string::find` and `std::string::substr`; a position that
the source keeps in an `int` with `npos` read as `-1` is an `Option Nat` here, `none` being `-1`.

The source narrows positions to `int`. The model keeps them exact, which is the same thing as
long as a buffer holds fewer than `2^31` bytes (`FlashWeb/Properties/Bounds.lean`).
-/

namespace FlashWeb

abbrev Bytes := List UInt8

/-- The bytes of a string literal of the source. -/
def text (s : String) : Bytes := s.toUTF8.data.toList

/-- `'\r'` -/
def CR : UInt8 := 13

/-- `'\n'` -/
def LF : UInt8 := 10

/-- `':'` -/
def COLON : UInt8 := 58

/-- `' '` -/
def SPACE : UInt8 := 32

/-- `'/'` -/
def SLASH : UInt8 := 47

/-- `'?'` -/
def QUESTION : UInt8 := 63

/-! ## Searching -/

/-- The first position at which `pat` occurs. -/
def findSub (pat : Bytes) : Bytes → Option Nat
  | [] => if pat.isPrefixOf [] then some 0 else none
  | c :: s => if pat.isPrefixOf (c :: s) then some 0 else (findSub pat s).map (· + 1)

/-- `s.find(pat, pos)` -/
def find (pat s : Bytes) (pos : Nat) : Option Nat :=
  if pos ≤ s.length then (findSub pat (s.drop pos)).map (· + pos) else none

/-- `s.substr(pos, len)` -/
def substr (s : Bytes) (pos len : Nat) : Bytes := (s.drop pos).take len

/-- A pattern that stands at the beginning is found there. -/
theorem findSub_prefixed {pat s : Bytes} (h : pat <+: s) : findSub pat s = some 0 := by
  cases s with
  | nil => rw [findSub, if_pos (List.isPrefixOf_iff_prefix.mpr h)]
  | cons c s => rw [findSub, if_pos (List.isPrefixOf_iff_prefix.mpr h)]

theorem findSub_cons_not_prefixed {pat s : Bytes} {c : UInt8} (h : ¬ pat <+: c :: s) :
    findSub pat (c :: s) = (findSub pat s).map (· + 1) := by
  rw [findSub, if_neg (by rwa [List.isPrefixOf_iff_prefix])]

/-- **`find` answers `npos` exactly when the pattern does not occur.** -/
theorem findSub_eq_none_iff {pat : Bytes} : ∀ {s : Bytes}, findSub pat s = none ↔ ¬ pat <:+: s
  | [] => by
    rw [findSub]
    cases pat <;> simp [List.isPrefixOf]
  | c :: s => by
    by_cases hp : pat <+: c :: s
    · simp [findSub_prefixed hp, hp.isInfix]
    · rw [findSub_cons_not_prefixed hp, Option.map_eq_none_iff, findSub_eq_none_iff,
        List.infix_cons_iff]
      simp [hp]

theorem findSub_lt {pat : Bytes} (hp : pat ≠ []) :
    ∀ {s : Bytes} {n : Nat}, findSub pat s = some n → n < s.length
  | [], n, h => by
    cases pat with
    | nil => exact absurd rfl hp
    | cons a as => simp [findSub] at h
  | c :: s, n, h => by
    rw [findSub] at h
    split at h
    · simp only [Option.some.injEq] at h
      simp [← h]
    · obtain ⟨m, hm, rfl⟩ := Option.map_eq_some_iff.mp h
      have := findSub_lt hp hm
      simp only [List.length_cons]
      omega

/-- A pattern is found at or behind `pos`, and in front of the end. -/
theorem find_bounds {pat s : Bytes} {pos n : Nat} (hp : pat ≠ []) (h : find pat s pos = some n) :
    pos ≤ n ∧ n < s.length := by
  rw [find] at h
  split at h
  · obtain ⟨m, hm, rfl⟩ := Option.map_eq_some_iff.mp h
    have hlt := findSub_lt hp hm
    rw [List.length_drop] at hlt
    omega
  · simp at h

/-! ## A single byte -/

theorem findSub_singleton_cons (c d : UInt8) (s : Bytes) :
    findSub [c] (d :: s) = if c = d then some 0 else (findSub [c] s).map (· + 1) := by
  rw [findSub]
  simp [List.isPrefixOf]

@[simp] theorem findSub_singleton_nil (c : UInt8) : findSub [c] [] = none := rfl

theorem findSub_singleton_eq_none {c : UInt8} :
    ∀ {s : Bytes}, findSub [c] s = none ↔ c ∉ s
  | [] => by simp
  | d :: s => by
    rw [findSub_singleton_cons]
    by_cases h : c = d
    · simp [h]
    · simp [h, findSub_singleton_eq_none (s := s)]

/-- **The first occurrence of a byte splits the string around it.** -/
theorem findSub_singleton_split {c : UInt8} :
    ∀ {s : Bytes} {n : Nat}, findSub [c] s = some n →
      s = s.take n ++ c :: s.drop (n + 1) ∧ c ∉ s.take n
  | [], n, h => by simp at h
  | d :: s, n, h => by
    rw [findSub_singleton_cons] at h
    split at h
    · next hcd =>
      simp only [Option.some.injEq] at h
      simp [← h, hcd]
    · next hcd =>
      obtain ⟨m, hm, rfl⟩ := Option.map_eq_some_iff.mp h
      obtain ⟨hs, hnot⟩ := findSub_singleton_split hm
      refine ⟨?_, by simp [hcd, hnot]⟩
      simp only [List.take_succ_cons, List.drop_succ_cons, List.cons_append]
      rw [← hs]

/-- The first occurrence of `c` is the one in front of which there is none. -/
theorem findSub_singleton_append_cons {c : UInt8} {s t : Bytes} (h : c ∉ s) :
    findSub [c] (s ++ c :: t) = some s.length := by
  induction s with
  | nil => exact findSub_prefixed ⟨t, rfl⟩
  | cons d s ih =>
    rw [List.mem_cons, not_or] at h
    rw [List.cons_append, findSub_singleton_cons, if_neg h.1, ih h.2]
    rfl

/-- The same for a search that begins behind `pre`. -/
theorem find_singleton_append_cons {c : UInt8} {pre s t : Bytes} (h : c ∉ s) :
    find [c] (pre ++ (s ++ c :: t)) pre.length = some (pre.length + s.length) := by
  rw [find, if_pos (by simp), List.drop_left' rfl, findSub_singleton_append_cons h,
    Option.map_some, Nat.add_comm]

theorem find_singleton_eq_none {c : UInt8} {pre s : Bytes} (h : c ∉ s) :
    find [c] (pre ++ s) pre.length = none := by
  rw [find, if_pos (by simp), List.drop_left' rfl, findSub_singleton_eq_none.mpr h]
  rfl

/-- There is one place to cut at the first `d`. -/
theorem cut_unique {d : UInt8} : ∀ {l l' r r' : Bytes}, d ∉ l → d ∉ l' →
    l ++ d :: r = l' ++ d :: r' → l = l' ∧ r = r'
  | [], [], _, _, _, _, h => ⟨rfl, (List.cons.inj h).2⟩
  | [], c :: l', _, _, _, h', h => absurd (List.mem_cons.mpr (Or.inl (List.cons.inj h).1)) h'
  | c :: l, [], _, _, h', _, h => absurd (List.mem_cons.mpr (Or.inl (List.cons.inj h).1.symm)) h'
  | c :: l, c' :: l', _, _, hl, hl', h => by
    obtain ⟨hc, ht⟩ := List.cons.inj h
    obtain ⟨h1, h2⟩ := cut_unique (fun hd => hl (List.mem_cons_of_mem _ hd))
      (fun hd => hl' (List.mem_cons_of_mem _ hd)) ht
    exact ⟨by rw [hc, h1], h2⟩

/-! ## A byte that the pattern does not hold -/

/-- A prefix does not reach over such a byte. -/
theorem prefix_of_prefix_append_cons {pat a b : Bytes} {c : UInt8} (hc : c ∉ pat)
    (h : pat <+: a ++ c :: b) : pat <+: a := by
  have hcut : a ++ [c] <+: a ++ c :: b := ⟨b, by simp⟩
  rcases List.prefix_or_prefix_of_prefix h hcut with hp | hp
  · rcases List.prefix_concat_iff.mp hp with heq | hp
    · exact absurd (by simp [heq]) hc
    · exact hp
  · exact absurd (hp.subset (by simp)) hc

/-- **Such a byte cuts a string in two that can be searched by themselves.** -/
theorem infix_append_cons_iff {pat b : Bytes} {c : UInt8} (hc : c ∉ pat) :
    ∀ {a : Bytes}, pat <:+: a ++ c :: b ↔ pat <:+: a ∨ pat <:+: b
  | [] => by
    rw [List.nil_append, List.infix_cons_iff]
    refine or_congr_left ⟨fun h => (prefix_of_prefix_append_cons (a := []) hc h).isInfix, ?_⟩
    intro h
    rw [List.infix_nil.mp h]
    exact List.nil_prefix
  | d :: a => by
    rw [List.cons_append, List.infix_cons_iff, List.infix_cons_iff, infix_append_cons_iff hc,
      or_assoc]
    refine or_congr_left ⟨prefix_of_prefix_append_cons (a := d :: a) hc, ?_⟩
    intro h
    exact h.trans (List.prefix_append _ _)

end FlashWeb
