import FlashWeb.Http.ParseUri
import Mathlib.Data.List.TakeWhile

/-!
# Request lines

`ParseURI` takes a line off the buffer and looks in it for a method, a `/`, a space and a version,
each with a `find` that starts where the last one ended. On a line of the usual shape the path is
what stands between the first `/` and the next space (`parseTarget_append`). Three things go wrong
around that: the line ends at the wrong byte, `GET` is looked for in the whole line before `POST`,
and `index.html` is chosen before the query is cut off.
-/

namespace FlashWeb

/-! ## Where the line ends -/

/-- `header_line`: the bytes that `ParseURI` interprets, if it gets so far. -/
def Http.headerLine (h : Http) : Option Bytes :=
  (find [lineDelimiter] h.readBuffer 0).map h.readBuffer.take

theorem headerLine_eq_none {h : Http} (hd : lineDelimiter ∉ h.readBuffer) :
    h.headerLine = none := by
  simp [Http.headerLine, find, findSub_singleton_eq_none.mpr hd]

theorem headerLine_append {h : Http} {line rest : Bytes} (hl : lineDelimiter ∉ line)
    (hb : h.readBuffer = line ++ lineDelimiter :: rest) : h.headerLine = some line := by
  simp [Http.headerLine, find, hb, findSub_singleton_append_cons hl]

/-- The line is interpreted once it and the byte behind it are off the buffer. -/
theorem parseUri_headerLine {h : Http} {line : Bytes} (hl : h.headerLine = some line) :
    ∃ rest, parseUri h = parseHeaderLine line { h with readBuffer := rest } := by
  rcases parseUri_cases h with ⟨hd, -⟩ | ⟨line', rest, hl', hb, heq⟩
  · rw [headerLine_eq_none hd] at hl
    simp at hl
  · rw [headerLine_append hl' hb, Option.some.injEq] at hl
    exact ⟨rest, hl ▸ heq⟩

/-- The verdict on a line is final, and the buffer is left alone. -/
theorem parseHeaderLine_frame (line : Bytes) (h : Http) :
    (parseHeaderLine line h).1 ≠ .parseUriAgain ∧
      (parseHeaderLine line h).2.readBuffer = h.readBuffer := by
  rcases parseHeaderLine_spec line with ⟨m, path, v, hs⟩ | ⟨m, path, hs⟩
  · rw [hs]
    exact ⟨by simp, rfl⟩
  · rw [hs]
    exact ⟨by simp, rfl⟩

/-- `ParseURI` cuts the buffer at the first `d`, and waits for it while there is none. -/
structure Http.CutsAt (d : UInt8) (h : Http) : Prop where
  again : (parseUri h).1 = .parseUriAgain ↔ d ∉ h.readBuffer
  unchanged : d ∉ h.readBuffer → (parseUri h).2 = h
  cut : ∀ line rest, d ∉ line → h.readBuffer = line ++ d :: rest →
    h.headerLine = some line ∧ (parseUri h).2.readBuffer = rest

/-- **The byte that `ParseURI` cuts at is the letter `r`.** -/
theorem parseUri_cutsAt (h : Http) : h.CutsAt lineDelimiter where
  again := by
    constructor
    · intro hv hd
      obtain ⟨line, rest, hb, hl⟩ := List.eq_append_cons_of_mem hd
      rw [parseUri_append h hl hb] at hv
      exact (parseHeaderLine_frame line _).1 hv
    · intro hd
      rw [parseUri_again hd]
  unchanged hd := by rw [parseUri_again hd]
  cut line rest hl hb := by
    refine ⟨headerLine_append hl hb, ?_⟩
    rw [parseUri_append h hl hb]
    exact (parseHeaderLine_frame line _).2

/--
**When the line ends at the carriage return.** Never once there is one: the letter `r` in front of
it would have to be missing and the carriage return itself to be found. A buffer with neither byte
is left to wait, as it should be.
-/
theorem cuts_at_cr (h : Http) :
    h.CutsAt CR ↔ CR ∉ h.readBuffer ∧ lineDelimiter ∉ h.readBuffer := by
  have hown := parseUri_cutsAt h
  constructor
  · intro hcr
    have hnone : CR ∉ h.readBuffer := by
      intro hmem
      obtain ⟨line, rest, hb, hl⟩ := List.eq_append_cons_of_mem hmem
      obtain ⟨hline, -⟩ := hcr.cut line rest hl hb
      by_cases hd : lineDelimiter ∈ h.readBuffer
      · obtain ⟨line', rest', hb', hl'⟩ := List.eq_append_cons_of_mem hd
        -- both cuts are behind the same line, so the bytes cut at are the same
        rw [(hown.cut line' rest' hl' hb').1, Option.some.injEq] at hline
        rw [hb', hline] at hb
        have hbyte := (List.cons.inj (List.append_cancel_left hb)).1
        exact absurd hbyte (by decide)
      · rw [headerLine_eq_none hd] at hline
        simp at hline
    exact ⟨hnone, hown.again.mp (hcr.again.mpr hnone)⟩
  · rintro ⟨hcr, hd⟩
    refine ⟨iff_of_true (hown.again.mpr hd) hcr, fun _ => hown.unchanged hd, ?_⟩
    intro line rest _ hb
    exact absurd (by simp [hb]) hcr

/-- A whole request is in the buffer, and `ParseURI` waits for more. -/
theorem crlf_line_not_cut : ¬ ({ Http.construct true with
    readBuffer := text "GET / HTTP/1.1\r\nA: b\r\n\r\n" } : Http).CutsAt CR := by
  intro h
  have hagain := h.again.mp rfl
  revert hagain
  decide

/-! ## The path between `/` and the space -/

/-- The path that `ParseURI` makes of the bytes between the `/` and the space. -/
def targetPath (target : Bytes) : Bytes :=
  if target = [] then text "index.html" else target.takeWhile (· ≠ QUESTION)

theorem takeWhile_ne_of_findSub {c : UInt8} {s : Bytes} {n : Nat} (h : findSub [c] s = some n) :
    s.takeWhile (· ≠ c) = s.take n := by
  obtain ⟨hs, hnot⟩ := findSub_singleton_split h
  have hall : ∀ d ∈ s.take n, (decide (d ≠ c)) = true := by
    intro d hd
    simpa using fun he : d = c => hnot (he ▸ hd)
  conv_lhs => rw [hs]
  rw [List.takeWhile_append_of_pos hall]
  simp

theorem takeWhile_ne_of_notMem {c : UInt8} {s : Bytes} (h : c ∉ s) :
    s.takeWhile (· ≠ c) = s := by
  rw [List.takeWhile_eq_self_iff]
  intro d hd
  simpa using fun he : d = c => h (he ▸ hd)

theorem targetPath_of_no_query {target : Bytes} (h : QUESTION ∉ target) :
    targetPath target = if target = [] then text "index.html" else target := by
  rw [targetPath, takeWhile_ne_of_notMem h]

/-- What stands behind the `?` does not matter. -/
theorem targetPath_query {path : Bytes} (query : Bytes) (h : QUESTION ∉ path) :
    targetPath (path ++ QUESTION :: query) = path := by
  rw [targetPath, if_neg (by simp), List.takeWhile_append_of_pos]
  · simp
  · intro d hd
    simpa using fun he : d = QUESTION => h (he ▸ hd)

theorem parsePath_append (pre target tail : Bytes) :
    parsePath (pre ++ SLASH :: (target ++ SPACE :: tail)) pre.length
      (pre.length + (target.length + 1)) = targetPath target := by
  unfold parsePath targetPath
  by_cases hnil : target = []
  · rw [if_neg (by simp [hnil]), if_pos hnil]
  · have hlen : 0 < target.length := List.length_pos_iff.mpr hnil
    have hcut : substr (pre ++ SLASH :: (target ++ SPACE :: tail)) (pre.length + 1)
        (pre.length + (target.length + 1) - pre.length - 1) = target := by
      unfold substr
      rw [List.drop_length_add_append, List.drop_succ_cons, List.drop_zero,
        show pre.length + (target.length + 1) - pre.length - 1 = target.length by omega,
        List.take_left' rfl]
    rw [if_pos (by omega), if_neg hnil, hcut]
    have hfind : find (text "?") target 0 = findSub [QUESTION] target := by
      change find [QUESTION] target 0 = _
      simp [find]
    dsimp only
    rw [hfind]
    cases hq : findSub [QUESTION] target with
    | none => rw [takeWhile_ne_of_notMem (findSub_singleton_eq_none.mp hq)]
    | some n => exact (takeWhile_ne_of_findSub hq).symm

/-- **The target of a request is what stands between the first `/` and the next space.** -/
theorem parseTarget_append (pre mid target tail : Bytes) (hm : SLASH ∉ mid)
    (ht : SPACE ∉ target) (h : Http) :
    parseTarget (pre ++ (mid ++ SLASH :: (target ++ SPACE :: tail))) pre.length h =
      parseVersion ((pre ++ mid ++ SLASH :: target) ++ SPACE :: tail)
        (pre ++ mid ++ SLASH :: target).length { h with filePath := targetPath target } := by
  have hslash : find (text "/") (pre ++ (mid ++ SLASH :: (target ++ SPACE :: tail))) pre.length =
      some (pre ++ mid).length := by
    rw [List.length_append]
    exact find_singleton_append_cons hm
  have hspace : find (text " ") ((pre ++ mid) ++ ((SLASH :: target) ++ SPACE :: tail))
      (pre ++ mid).length = some ((pre ++ mid).length + (target.length + 1)) :=
    find_singleton_append_cons (by
      rw [List.mem_cons, not_or]
      exact ⟨by decide, ht⟩)
  have hassoc : pre ++ (mid ++ SLASH :: (target ++ SPACE :: tail)) =
      (pre ++ mid) ++ ((SLASH :: target) ++ SPACE :: tail) := by simp
  rw [parseTarget, hslash]
  dsimp only
  rw [hassoc, hspace]
  dsimp only
  rw [List.cons_append, parsePath_append]
  congr 1
  · simp
  · simp only [List.length_append, List.length_cons]

/-! ## The version -/

/-- The version as a request line spells it. -/
def HttpVersion.name : HttpVersion → Bytes
  | .http10 => text "1.0"
  | .http11 => text "1.1"

theorem parseVersion_append (pre mid rest : Bytes) (hm : SLASH ∉ mid) (v : HttpVersion)
    (h : Http) : parseVersion (pre ++ (mid ++ SLASH :: (v.name ++ rest))) pre.length h =
      (.parseUriSuccess, { h with httpVersion := v }) := by
  have hslash : find (text "/") (pre ++ (mid ++ SLASH :: (v.name ++ rest))) pre.length =
      some (pre ++ mid).length := by
    rw [List.length_append]
    exact find_singleton_append_cons hm
  have hversion : substr (pre ++ (mid ++ SLASH :: (v.name ++ rest))) ((pre ++ mid).length + 1) 3 =
      v.name := by
    unfold substr
    rw [← List.append_assoc, List.drop_length_add_append, List.drop_succ_cons, List.drop_zero]
    cases v <;> rfl
  have hlen : ¬ (pre ++ (mid ++ SLASH :: (v.name ++ rest))).length - (pre ++ mid).length ≤ 3 := by
    have : v.name.length = 3 := by cases v <;> rfl
    simp only [List.length_append, List.length_cons]
    omega
  rw [parseVersion, hslash]
  dsimp only
  rw [if_neg hlen, hversion]
  cases v <;> rfl

/-! ## Lines of the usual shape -/

/-- The method as a request line spells it. -/
def HttpMethod.name : HttpMethod → Bytes
  | .methodGet => text "GET"
  | .methodPost => text "POST"

/-- The line `m /target HTTP/v`. -/
def requestLine (m : HttpMethod) (target : Bytes) (v : HttpVersion) : Bytes :=
  m.name ++ text " /" ++ target ++ text " HTTP/" ++ v.name

theorem requestLine_eq (m : HttpMethod) (target : Bytes) (v : HttpVersion) :
    requestLine m target v = (m.name ++ text " ") ++
      SLASH :: (target ++ SPACE :: (text "HTTP" ++ SLASH :: v.name)) := by
  have hslash : text " /" = text " " ++ [SLASH] := rfl
  have hhttp : text " HTTP/" = SPACE :: (text "HTTP" ++ [SLASH]) := rfl
  unfold requestLine
  rw [hslash, hhttp]
  simp

/-- From the method on, everything is found where it stands. -/
theorem parseTarget_requestLine (m : HttpMethod) {target : Bytes} (v : HttpVersion)
    (ht : SPACE ∉ target) (h : Http) : parseTarget (requestLine m target v) 0 h =
      (.parseUriSuccess, h.setLine h.method (targetPath target) v) := by
  have hm : SLASH ∉ m.name ++ text " " := by cases m <;> decide
  have htarget := parseTarget_append [] (m.name ++ text " ") target
    (text "HTTP" ++ SLASH :: v.name) hm ht h
  rw [List.nil_append, ← requestLine_eq, List.nil_append, List.length_nil] at htarget
  have hversion := parseVersion_append (m.name ++ text " " ++ SLASH :: target)
    (SPACE :: text "HTTP") [] (by decide) v { h with filePath := targetPath target }
  rw [List.append_nil] at hversion
  rw [htarget]
  exact hversion

/-- A `GET` can stand nowhere in the line but in the target. -/
theorem get_infix_post_line (target : Bytes) (v : HttpVersion) :
    text "GET" <:+: requestLine .methodPost target v ↔ text "GET" <:+: target := by
  rw [requestLine_eq, infix_append_cons_iff (by decide), infix_append_cons_iff (by decide)]
  have hleft : ¬ text "GET" <:+: HttpMethod.name .methodPost ++ text " " := by decide
  have hright : ¬ text "GET" <:+: text "HTTP" ++ SLASH :: v.name := by cases v <;> decide
  simp only [hleft, hright, false_or, or_false]

/-- A line that begins with `GET` is read as it is written. -/
theorem parseHeaderLine_get {target : Bytes} (v : HttpVersion) (ht : SPACE ∉ target) (h : Http) :
    parseHeaderLine (requestLine .methodGet target v) h =
      (.parseUriSuccess, h.setLine (some .methodGet) (targetPath target) v) := by
  have hget : find (text "GET") (requestLine .methodGet target v) 0 = some 0 := by
    rw [find, if_pos (Nat.zero_le _), List.drop_zero, findSub_prefixed, Option.map_some]
    exact ⟨text " /" ++ target ++ text " HTTP/" ++ v.name, by simp [requestLine, HttpMethod.name]⟩
  rw [parseHeaderLine, hget]
  exact parseTarget_requestLine .methodGet v ht _

/-- A line that begins with `POST` is, unless there is a `GET` in its target. -/
theorem parseHeaderLine_post {target : Bytes} (v : HttpVersion) (ht : SPACE ∉ target)
    (hg : ¬ text "GET" <:+: target) (h : Http) :
    parseHeaderLine (requestLine .methodPost target v) h =
      (.parseUriSuccess, h.setLine (some .methodPost) (targetPath target) v) := by
  have hget : find (text "GET") (requestLine .methodPost target v) 0 = none := by
    rw [find, if_pos (Nat.zero_le _), List.drop_zero, findSub_eq_none_iff.mpr, Option.map_none]
    rwa [get_infix_post_line]
  have hpost : find (text "POST") (requestLine .methodPost target v) 0 = some 0 := by
    rw [find, if_pos (Nat.zero_le _), List.drop_zero, findSub_prefixed, Option.map_some]
    exact ⟨text " /" ++ target ++ text " HTTP/" ++ v.name, by simp [requestLine, HttpMethod.name]⟩
  rw [parseHeaderLine, hget]
  dsimp only
  rw [hpost]
  exact parseTarget_requestLine .methodPost v ht _

/-- A line with a `GET` somewhere is never taken for a `POST`. -/
theorem parseHeaderLine_of_get {line : Bytes} (hg : text "GET" <:+: line) (h : Http) :
    (parseHeaderLine line h).2.method = some .methodGet := by
  rw [parseHeaderLine]
  cases hf : find (text "GET") line 0 with
  | none =>
    rw [find, if_pos (Nat.zero_le _), List.drop_zero, Option.map_eq_none_iff,
      findSub_eq_none_iff] at hf
    exact absurd hg hf
  | some posGet =>
    dsimp only
    rcases parseTarget_spec line posGet with ⟨path, v, hs⟩ | ⟨path, hs⟩ <;> rw [hs] <;> rfl

/-! ## Round trips -/

/--
**When a request line is read back.** Always for `GET`; for `POST` if and only if the three letters
of `GET` do not occur in the path.
-/
theorem request_line_round_trip (m : HttpMethod) (path : Bytes) (v : HttpVersion) (h : Http)
    (hspace : SPACE ∉ path) (hquery : QUESTION ∉ path) :
    parseHeaderLine (requestLine m path v) h = (.parseUriSuccess,
        h.setLine (some m) (if path = [] then text "index.html" else path) v) ↔
      (m = .methodPost → ¬ text "GET" <:+: path) := by
  rw [← targetPath_of_no_query hquery]
  cases m with
  | methodGet => exact iff_of_true (parseHeaderLine_get v hspace h) nofun
  | methodPost =>
    constructor
    · intro hs _ hg
      have hm := parseHeaderLine_of_get ((get_infix_post_line path v).mpr hg) h
      rw [hs] at hm
      exact absurd hm (by simp [Http.setLine])
    · intro hg
      exact parseHeaderLine_post v hspace (hg rfl) h

/-- A path with slashes, digits and dots in it, and the word that the line begins with. -/
theorem request_line_round_trip_post :
    parseHeaderLine (text "POST //a/1.0/POST HTTP/1.1") (Http.construct true) =
      (.parseUriSuccess,
        (Http.construct true).setLine (some .methodPost) (text "/a/1.0/POST") .http11) :=
  (request_line_round_trip .methodPost (text "/a/1.0/POST") .http11 (Http.construct true)
    (by decide) (by decide)).mpr (by decide)

/-- The path is taken for the method, and the version for the path. -/
theorem post_of_get_not_read_back :
    parseHeaderLine (text "POST /GET HTTP/1.1") (Http.construct true) ≠
      (.parseUriSuccess,
        (Http.construct true).setLine (some .methodPost) (text "GET") .http11) := by
  intro h
  have hverdict := congrArg Prod.fst h
  revert hverdict
  decide

/-- Two results of `ParseURI` that ask for the same file in the same way. -/
structure SameRequest (a b : ParseUriState × Http) : Prop where
  success : a.1 = .parseUriSuccess ∧ b.1 = .parseUriSuccess
  method : a.2.method = b.2.method
  httpVersion : a.2.httpVersion = b.2.httpVersion
  filePath : a.2.filePath = b.2.filePath

/--
**When the query does not matter.** If and only if there is a path in front of it: the query counts
as a part of the target when the choice of `index.html` is made, and is cut off after that.
-/
theorem query_ignored (path query : Bytes) (v : HttpVersion) (h : Http) (hspace : SPACE ∉ path)
    (hquery : QUESTION ∉ path) (hspace' : SPACE ∉ query) :
    (SameRequest
        (parseHeaderLine (requestLine .methodGet (path ++ QUESTION :: query) v) h)
        (parseHeaderLine (requestLine .methodGet path v) h) ∧
      (path = [] → (parseHeaderLine (requestLine .methodGet (path ++ QUESTION :: query) v) h
        ).2.filePath = text "index.html")) ↔ path ≠ [] := by
  have hspaces : SPACE ∉ path ++ QUESTION :: query := by
    simp only [List.mem_append, List.mem_cons, not_or]
    exact ⟨hspace, by decide, hspace'⟩
  rw [parseHeaderLine_get v hspaces h, parseHeaderLine_get v hspace h, targetPath_query _ hquery,
    targetPath_of_no_query hquery]
  constructor
  · rintro ⟨hsame, -⟩ rfl
    have hpath : ([] : Bytes) = text "index.html" := hsame.filePath
    revert hpath
    decide
  · intro hne
    rw [if_neg hne]
    exact ⟨⟨⟨rfl, rfl⟩, rfl, rfl, rfl⟩, fun he => absurd he hne⟩

theorem query_ignored_behind_path : SameRequest
    (parseHeaderLine (text "GET /a?/GET HTTP/1.0") (Http.construct true))
    (parseHeaderLine (text "GET /a HTTP/1.0") (Http.construct true)) :=
  ((query_ignored (text "a") (text "/GET") .http10 (Http.construct true) (by decide)
    (by decide) (by decide)).mpr (by decide)).1

/-- A query on its own asks for the empty path instead of `index.html`. -/
theorem query_alone_not_ignored : ¬ SameRequest
    (parseHeaderLine (text "GET /?a HTTP/1.1") (Http.construct true))
    (parseHeaderLine (text "GET / HTTP/1.1") (Http.construct true)) := by
  intro h
  have hpath := h.filePath
  revert hpath
  decide

end FlashWeb
