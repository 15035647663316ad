import FlashWeb.Properties.RequestLine

/-!
# Which request lines are accepted

`ParseURI` accepts a line with a method anywhere in it. Behind the method it takes the bytes between
the first `/` and the next space for the target and the three bytes behind the `/` after that for
the version, whatever else there is; a line with no `/` behind its method asks for `index.html`.
`RequestLine` says so, and `parseUri_grammar` that nothing else is accepted.
-/

namespace FlashWeb

/-! ## The first occurrence -/

/-- `pat` stands in `s` at `n`, and nowhere before. -/
structure FirstAt (pat s : Bytes) (n : Nat) : Prop where
  here : pat <+: s.drop n
  before : ∀ k < n, ¬ pat <+: s.drop k

/-- **`find` finds the first occurrence.** -/
theorem findSub_eq_some_iff {pat : Bytes} (hp : pat ≠ []) : ∀ {s : Bytes} {n : Nat},
    findSub pat s = some n ↔ FirstAt pat s n
  | [], n => by
    have hnone : findSub pat [] = none := by
      rw [findSub_eq_none_iff, List.infix_nil]
      exact hp
    rw [hnone]
    constructor
    · intro h
      exact nomatch h
    · intro h
      have hnil := h.here
      rw [List.drop_nil, List.prefix_nil] at hnil
      exact absurd hnil hp
  | c :: s, n => by
    by_cases hc : pat <+: c :: s
    · rw [findSub_prefixed hc, Option.some.injEq]
      constructor
      · rintro rfl
        exact ⟨hc, fun k hk => absurd hk (Nat.not_lt_zero k)⟩
      · intro h
        by_contra hn
        exact h.before 0 (Nat.pos_of_ne_zero fun h0 => hn h0.symm) hc
    · rw [findSub_cons_not_prefixed hc, Option.map_eq_some_iff]
      constructor
      · rintro ⟨m, hm, rfl⟩
        obtain ⟨hhere, hbefore⟩ := (findSub_eq_some_iff hp).mp hm
        refine ⟨hhere, fun k hk => ?_⟩
        cases k with
        | zero => exact hc
        | succ k => exact hbefore k (Nat.lt_of_succ_lt_succ hk)
      · intro h
        cases n with
        | zero => exact absurd h.here hc
        | succ n =>
          exact ⟨n, (findSub_eq_some_iff hp).mpr
            ⟨h.here, fun k hk => h.before (k + 1) (Nat.succ_lt_succ hk)⟩, rfl⟩

/-- `find` from the beginning of the line. -/
theorem find_zero (pat s : Bytes) : find pat s 0 = findSub pat s := by
  simp [find]

/-! ## The grammar -/

/-- The method that a line has, and where: the first `GET` or, without one, the first `POST`. -/
def MethodFirst (line : Bytes) : HttpMethod → Nat → Prop
  | .methodGet, n => FirstAt (text "GET") line n
  | .methodPost, n => ¬ text "GET" <:+: line ∧ FirstAt (text "POST") line n

/-- What a line says from its method on. -/
inductive BehindMethod : Bytes → Bytes → HttpVersion → Prop where
  | bare {rest : Bytes} : SLASH ∉ rest → BehindMethod rest (text "index.html") .http11
  | full {mid target gap tail : Bytes} {v : HttpVersion} : SLASH ∉ mid → SPACE ∉ target →
      SLASH ∉ gap →
      BehindMethod (mid ++ SLASH :: (target ++ SPACE :: (gap ++ SLASH :: (v.name ++ tail))))
        (targetPath target) v

/-- The line asks for `path` with method `m` and version `v`. -/
def RequestLine (line : Bytes) (m : HttpMethod) (path : Bytes) (v : HttpVersion) : Prop :=
  ∃ pre rest, line = pre ++ rest ∧ MethodFirst line m pre.length ∧ BehindMethod rest path v

/-! ## Behind the method -/

/-- Three bytes are a version or they are not. -/
theorem parseVersion_rejected {pre gap rest : Bytes} (hgap : SLASH ∉ gap)
    (hv : ∀ (v : HttpVersion) tail, rest ≠ v.name ++ tail) (h : Http) :
    parseVersion (pre ++ (gap ++ SLASH :: rest)) pre.length h = (.parseUriError, h) := by
  have hslash : find (text "/") (pre ++ (gap ++ SLASH :: rest)) pre.length =
      some (pre ++ gap).length := by
    rw [List.length_append]
    exact find_singleton_append_cons hgap
  have hversion : substr (pre ++ (gap ++ SLASH :: rest)) ((pre ++ gap).length + 1) 3 =
      rest.take 3 := by
    unfold substr
    rw [← List.append_assoc, List.drop_length_add_append, List.drop_succ_cons, List.drop_zero]
  have hne : ∀ v : HttpVersion, rest.take 3 ≠ v.name := fun v heq =>
    hv v (rest.drop 3) (by rw [← heq, List.take_append_drop])
  rw [parseVersion, hslash]
  dsimp only
  split
  · rfl
  · rw [hversion, if_neg (show rest.take 3 ≠ text "1.0" from hne .http10),
      if_neg (show rest.take 3 ≠ text "1.1" from hne .http11)]

/-- Without another `/` there is no version. -/
theorem parseVersion_no_slash {pre rest : Bytes} (hs : SLASH ∉ rest) (h : Http) :
    parseVersion (pre ++ rest) pre.length h = (.parseUriError, h) := by
  rw [parseVersion, show find (text "/") (pre ++ rest) pre.length = none from
    find_singleton_eq_none hs]

theorem setLine_inj {h : Http} {m m' : Option HttpMethod} {path path' : Bytes}
    {v v' : HttpVersion} (heq : h.setLine m path v = h.setLine m' path' v') :
    m = m' ∧ path = path' ∧ v = v' :=
  ⟨congrArg Http.method heq, congrArg Http.filePath heq, congrArg Http.httpVersion heq⟩

/-- **What `ParseURI` finds behind the method is what the grammar says.** -/
theorem parseTarget_iff (pre rest path : Bytes) (v : HttpVersion) (h : Http) :
    parseTarget (pre ++ rest) pre.length h = (.parseUriSuccess, h.setLine h.method path v) ↔
      BehindMethod rest path v := by
  constructor
  · intro hs
    by_cases hslash : SLASH ∈ rest
    · obtain ⟨mid, rest, rfl, hmid⟩ := List.eq_append_cons_of_mem hslash
      by_cases hspace : SPACE ∈ rest
      · obtain ⟨target, rest, rfl, ht⟩ := List.eq_append_cons_of_mem hspace
        rw [parseTarget_append pre mid target rest hmid ht] at hs
        have hsp : SLASH ∉ [SPACE] := by decide
        by_cases hslash' : SLASH ∈ rest
        · obtain ⟨gap, rest, rfl, hgap⟩ := List.eq_append_cons_of_mem hslash'
          have hgap' : SLASH ∉ SPACE :: gap := by
            rw [← List.singleton_append, List.mem_append]
            exact not_or.mpr ⟨hsp, hgap⟩
          rw [← List.cons_append] at hs
          by_cases hv : ∃ (u : HttpVersion) (tail : Bytes), rest = u.name ++ tail
          · obtain ⟨u, tail, rfl⟩ := hv
            rw [parseVersion_append _ _ _ hgap', Prod.mk.injEq] at hs
            obtain ⟨-, rfl, rfl⟩ := setLine_inj (h := h) hs.2
            exact .full hmid ht hgap
          · rw [not_exists] at hv
            rw [parseVersion_rejected hgap' fun u tail heq => hv u ⟨tail, heq⟩] at hs
            simp at hs
        · have hnone : SLASH ∉ SPACE :: rest := by
            rw [← List.singleton_append, List.mem_append]
            exact not_or.mpr ⟨hsp, hslash'⟩
          rw [parseVersion_no_slash hnone] at hs
          simp at hs
      · -- without a space behind the `/` the line is rejected
        have hfind : find (text "/") (pre ++ (mid ++ SLASH :: rest)) pre.length =
            some (pre ++ mid).length := by
          rw [List.length_append]
          exact find_singleton_append_cons hmid
        have hnone : find (text " ") ((pre ++ mid) ++ (SLASH :: rest)) (pre ++ mid).length = none :=
          find_singleton_eq_none (by
            rw [List.mem_cons, not_or]
            exact ⟨by decide, hspace⟩)
        rw [List.append_assoc] at hnone
        rw [parseTarget, hfind] at hs
        dsimp only at hs
        rw [hnone] at hs
        simp at hs
    · rw [parseTarget, show find (text "/") (pre ++ rest) pre.length = none from
        find_singleton_eq_none hslash, Prod.mk.injEq] at hs
      obtain ⟨-, rfl, rfl⟩ := setLine_inj (h := h) (m := h.method) hs.2
      exact .bare hslash
  · intro hb
    cases hb with
    | bare hslash =>
      rw [parseTarget, show find (text "/") (pre ++ rest) pre.length = none from
        find_singleton_eq_none hslash]
      rfl
    | @full mid target gap tail _ hmid ht hgap =>
      have hgap' : SLASH ∉ SPACE :: gap := by
        rw [List.mem_cons, not_or]
        exact ⟨by decide, hgap⟩
      rw [parseTarget_append pre mid target _ hmid ht, ← List.cons_append,
        parseVersion_append _ _ _ hgap']
      rfl

/-! ## The whole line -/

/-- The first occurrence is in the line. -/
theorem FirstAt.le_length {pat s : Bytes} {n : Nat} (hp : pat ≠ []) (h : FirstAt pat s n) :
    n ≤ s.length :=
  Nat.le_of_lt (findSub_lt hp ((findSub_eq_some_iff hp).mpr h))

theorem get_ne_nil : text "GET" ≠ [] := by decide

theorem post_ne_nil : text "POST" ≠ [] := by decide

theorem MethodFirst.le_length {line : Bytes} {n : Nat} :
    ∀ {m : HttpMethod}, MethodFirst line m n → n ≤ line.length
  | .methodGet, h => FirstAt.le_length get_ne_nil h
  | .methodPost, h => h.2.le_length post_ne_nil

/-- The rest of the line is read from the method on. -/
theorem parseHeaderLine_of_method {line : Bytes} {n : Nat} (h : Http) :
    ∀ {m : HttpMethod}, MethodFirst line m n →
      parseHeaderLine line h = parseTarget line n { h with method := some m }
  | .methodGet, hm => by
    have hget := (findSub_eq_some_iff get_ne_nil).mpr hm
    rw [parseHeaderLine, find_zero, hget]
  | .methodPost, hm => by
    have hget := findSub_eq_none_iff.mpr hm.1
    have hpost := (findSub_eq_some_iff post_ne_nil).mpr hm.2
    rw [parseHeaderLine, find_zero, find_zero, hget, hpost]

/-- A line that is not rejected has a method. -/
theorem parseHeaderLine_method_cases (line : Bytes) (h : Http) :
    (∃ m n, MethodFirst line m n) ∨ parseHeaderLine line h = (.parseUriError, h) := by
  by_cases hg : text "GET" <:+: line
  · obtain ⟨n, hn⟩ := Option.ne_none_iff_exists'.mp (mt findSub_eq_none_iff.mp (not_not.mpr hg))
    exact Or.inl ⟨.methodGet, n, (findSub_eq_some_iff get_ne_nil).mp hn⟩
  · by_cases hp : text "POST" <:+: line
    · obtain ⟨n, hn⟩ := Option.ne_none_iff_exists'.mp (mt findSub_eq_none_iff.mp (not_not.mpr hp))
      exact Or.inl ⟨.methodPost, n, hg, (findSub_eq_some_iff post_ne_nil).mp hn⟩
    · right
      rw [parseHeaderLine, find_zero, find_zero, findSub_eq_none_iff.mpr hg,
        findSub_eq_none_iff.mpr hp]

/-- **What `ParseURI` reads in a line is what the grammar says.** -/
theorem parseHeaderLine_iff (line path : Bytes) (m : HttpMethod) (v : HttpVersion) (h : Http) :
    parseHeaderLine line h = (.parseUriSuccess, h.setLine (some m) path v) ↔
      RequestLine line m path v := by
  constructor
  · intro hs
    rcases parseHeaderLine_method_cases line h with ⟨m', n, hm⟩ | herr
    · have hlen : (line.take n).length = n := List.length_take_of_le hm.le_length
      have hline : line.take n ++ line.drop n = line := List.take_append_drop n line
      have htarget := parseTarget_iff (line.take n) (line.drop n) path v
        { h with method := some m' }
      rw [hline, hlen] at htarget
      rw [parseHeaderLine_of_method h hm] at hs
      have hmethod : m' = m := by
        rcases parseTarget_spec line n with ⟨path', v', hp⟩ | ⟨path', hp⟩
        · rw [hp, Prod.mk.injEq] at hs
          exact Option.some.inj (setLine_inj (h := h) hs.2).1
        · rw [hp] at hs
          simp at hs
      subst hmethod
      refine ⟨line.take n, line.drop n, hline.symm, ?_, htarget.mp hs⟩
      rw [hlen]
      exact hm
    · rw [herr] at hs
      simp at hs
  · rintro ⟨pre, rest, rfl, hm, hb⟩
    rw [parseHeaderLine_of_method h hm]
    exact (parseTarget_iff pre rest path v { h with method := some m }).mpr hb

/-- A line that the grammar has no reading for is rejected. -/
theorem parseHeaderLine_error_iff (line : Bytes) (h : Http) :
    (parseHeaderLine line h).1 = .parseUriError ↔ ∀ m path v, ¬ RequestLine line m path v := by
  rcases parseHeaderLine_spec line with ⟨m, path, v, hp⟩ | ⟨m, path, hp⟩
  · refine iff_of_false ?_ fun hno => hno m path v ?_
    · rw [hp]
      simp
    · exact (parseHeaderLine_iff line path m v h).mp (hp h)
  · refine iff_of_true ?_ fun m path v hr => ?_
    · rw [hp]
    · have hs := (parseHeaderLine_iff line path m v h).mpr hr
      rw [hp] at hs
      simp at hs

/-- What `ParseURI` makes of the buffer, with the inputs that lead to each outcome. -/
structure Http.ReadsLine (h : Http) : Prop where
  again : parseUri h = (.parseUriAgain, h) ↔ lineDelimiter ∉ h.readBuffer
  success : ∀ m path v rest,
    parseUri h = (.parseUriSuccess, { h.setLine (some m) path v with readBuffer := rest }) ↔
      ∃ line, lineDelimiter ∉ line ∧ h.readBuffer = line ++ lineDelimiter :: rest ∧
        RequestLine line m path v
  error : ∀ rest, (parseUri h).1 = .parseUriError ∧ (parseUri h).2.readBuffer = rest ↔
    ∃ line, lineDelimiter ∉ line ∧ h.readBuffer = line ++ lineDelimiter :: rest ∧
      ∀ m path v, ¬ RequestLine line m path v

/--
**`ParseURI` accepts the request lines of the grammar and no others.** A line is taken off the
buffer as soon as its delimiter is there; if the grammar reads it, the three fields are what it
says and nothing else of the connection has changed, and if not it is an error, behind the line too.
-/
theorem parseUri_grammar (h : Http) : h.ReadsLine := by
  rcases parseUri_cases h with ⟨hd, hp⟩ | ⟨line, rest, hl, hb, hp⟩
  · have hcut : ∀ line rest, h.readBuffer ≠ line ++ lineDelimiter :: rest := by
      intro line rest hb
      rw [hb] at hd
      simp at hd
    refine ⟨iff_of_true hp hd, fun m path v rest => iff_of_false ?_ ?_,
      fun rest => iff_of_false ?_ ?_⟩
    · rw [hp]
      simp
    · rintro ⟨line, -, hb, -⟩
      exact hcut line rest hb
    · rw [hp]
      simp
    · rintro ⟨line, -, hb, -⟩
      exact hcut line rest hb
  · have hd : lineDelimiter ∈ h.readBuffer := by
      rw [hb]
      simp
    have hunique : ∀ {line' rest' : Bytes}, lineDelimiter ∉ line' →
        h.readBuffer = line' ++ lineDelimiter :: rest' → line' = line ∧ rest' = rest :=
      fun hl' hb' => cut_unique hl' hl (hb'.symm.trans hb)
    have hframe := parseHeaderLine_frame line { h with readBuffer := rest }
    refine ⟨iff_of_false ?_ (not_not.mpr hd), fun m path v rest' => ?_, fun rest' => ?_⟩
    · intro ha
      have hne := hframe.1
      rw [← hp, ha] at hne
      exact hne rfl
    · rw [hp]
      constructor
      · intro hs
        have hrest := hframe.2
        rw [hs] at hrest
        obtain rfl : rest' = rest := hrest
        exact ⟨line, hl, hb, (parseHeaderLine_iff line path m v _).mp hs⟩
      · rintro ⟨line', hl', hb', hr⟩
        obtain ⟨rfl, rfl⟩ := hunique hl' hb'
        exact (parseHeaderLine_iff line' path m v _).mpr hr
    · rw [hp, parseHeaderLine_error_iff, hframe.2]
      constructor
      · rintro ⟨hno, rfl⟩
        exact ⟨line, hl, hb, hno⟩
      · rintro ⟨line', hl', hb', hno⟩
        obtain ⟨rfl, rfl⟩ := hunique hl' hb'
        exact ⟨hno, rfl⟩

end FlashWeb
