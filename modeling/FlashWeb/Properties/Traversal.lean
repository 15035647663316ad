import FlashWeb.Lib.Paths
import FlashWeb.Properties.HandleRead
import FlashWeb.Properties.RequestLine

/-!
# Which files can be asked for

`ParseURI` leaves out the `/` in front of the path, so that `stat` and `open` look for it in the
working directory, and looks at it no further. `parseHeaderLine_path` says where in the line the
path comes from; `served_below` says what follows: a file under the working directory is served if
and only if that is what the line asks for.
-/

namespace FlashWeb

open Lib

/-! ## Paths of the file system -/

/-- What a segment means to the kernel. -/
def segmentOf (name : Bytes) : Segment Bytes :=
  if name = [] ∨ name = text "." then .here
  else if name = text ".." then .parent
  else .child name

/-- The segments of a path. -/
def segments (path : Bytes) : List (Segment Bytes) := (path.splitOn SLASH).map segmentOf

/-- A relative path that never climbs above the directory it starts in. -/
structure StaysBelow (path : Bytes) : Prop where
  relative : path.head? ≠ some SLASH
  below : Segment.Below (segments path)

theorem staysBelow_iff (path : Bytes) :
    StaysBelow path ↔ path.head? ≠ some SLASH ∧ Segment.Below (segments path) :=
  ⟨fun ⟨h, h'⟩ => ⟨h, h'⟩, fun ⟨h, h'⟩ => ⟨h, h'⟩⟩

instance (path : Bytes) : Decidable (StaysBelow path) :=
  decidable_of_iff _ (staysBelow_iff path).symm

/-- The path that `ProcessRequest` passes to `stat` and to `open`. -/
def Http.servedPath (h : Http) : Bytes := cStr h.filePath

/-- **`ProcessRequest` asks the file system for this path and for no other.** -/
theorem processRequest_servedPath {fs fs' : FileSystem} {c : Conn}
    (hstat : fs.stat c.http.servedPath = fs'.stat c.http.servedPath)
    (hopen : fs.opens c.http.servedPath = fs'.opens c.http.servedPath)
    (hmap : fs.mmap c.http.servedPath = fs'.mmap c.http.servedPath) :
    processRequest fs c = processRequest fs' c := by
  unfold Http.servedPath at hstat hopen hmap
  simp only [processRequest, hstat, hopen, hmap]

/-- The header has no say in it. -/
theorem parseHeaders_servedPath (before : UInt8) (h : Http) :
    (parseHeaders before h).2.servedPath = h.servedPath := by
  obtain ⟨buf, st, kv, -, hfr⟩ := parseHeaders_frame before h
  rw [hfr]
  rfl

/-! ## Where the path comes from -/

/-- The method stands at `n`: the first `GET` of the line or, without one, the first `POST`. -/
def MethodAt (line : Bytes) (n : Nat) : Prop :=
  findSub (text "GET") line = some n ∨
    findSub (text "GET") line = none ∧ findSub (text "POST") line = some n

/-- From the method on, `target` stands between the first `/` and the next space. -/
structure Targets (line target : Bytes) : Prop where
  cut : ∃ pre mid tail, line = pre ++ (mid ++ SLASH :: (target ++ SPACE :: tail)) ∧
    MethodAt line pre.length ∧ SLASH ∉ mid ∧ SPACE ∉ target

/-- There is one method in a line. -/
theorem MethodAt.unique {line : Bytes} {n n' : Nat} (h : MethodAt line n) (h' : MethodAt line n') :
    n = n' := by
  rcases h with h | ⟨hn, h⟩ <;> rcases h' with h' | ⟨hn', h'⟩
  · exact Option.some.inj (h.symm.trans h')
  · rw [h] at hn'
    simp at hn'
  · rw [h'] at hn
    simp at hn
  · exact Option.some.inj (h.symm.trans h')

theorem parseVersion_filePath (line : Bytes) (pos : Nat) (h : Http) :
    (parseVersion line pos h).2.filePath = h.filePath := by
  rcases parseVersion_spec line pos with ⟨v, hs⟩ | hs <;> rw [hs]

/-- What `parseTarget` finds behind the method. -/
theorem parseTarget_path (pre rest : Bytes) (h : Http)
    (hs : (parseTarget (pre ++ rest) pre.length h).1 = .parseUriSuccess) :
    (SLASH ∉ rest ∧ (parseTarget (pre ++ rest) pre.length h).2.filePath = text "index.html") ∨
      ∃ mid target tail, rest = mid ++ SLASH :: (target ++ SPACE :: tail) ∧ SLASH ∉ mid ∧
        SPACE ∉ target ∧
        (parseTarget (pre ++ rest) pre.length h).2.filePath = targetPath target := by
  by_cases hslash : SLASH ∈ rest
  · obtain ⟨mid, rest, rfl, hmid⟩ := List.eq_append_cons_of_mem hslash
    by_cases hspace : SPACE ∈ rest
    · obtain ⟨target, tail, rfl, ht⟩ := List.eq_append_cons_of_mem hspace
      refine Or.inr ⟨mid, target, tail, rfl, hmid, ht, ?_⟩
      rw [parseTarget_append pre mid target tail hmid ht, parseVersion_filePath]
    · -- without a space behind the `/` the line is rejected
      have hfind : find (text "/") (pre ++ (mid ++ SLASH :: rest)) pre.length =
          some (pre ++ mid).length := by
        rw [List.length_append]
        exact find_singleton_append_cons hmid
      have hnone : find (text " ") ((pre ++ mid) ++ (SLASH :: rest)) (pre ++ mid).length = none :=
        find_singleton_eq_none (by
          rw [List.mem_cons, not_or]
          exact ⟨by decide, hspace⟩)
      rw [List.append_assoc] at hnone
      rw [parseTarget, hfind] at hs
      dsimp only at hs
      rw [hnone] at hs
      simp at hs
  · refine Or.inl ⟨hslash, ?_⟩
    rw [parseTarget, show find (text "/") (pre ++ rest) pre.length = none from
      find_singleton_eq_none hslash]

/-- **The path of an accepted line is its target, or `index.html` when it has none.** -/
theorem parseHeaderLine_path {line : Bytes} {h : Http}
    (hs : (parseHeaderLine line h).1 = .parseUriSuccess) :
    (∃ target, Targets line target ∧ (parseHeaderLine line h).2.filePath = targetPath target) ∨
      (∀ target, ¬ Targets line target) ∧
        (parseHeaderLine line h).2.filePath = text "index.html" := by
  obtain ⟨pos, m, hpos, hlt, heq⟩ : ∃ pos m, MethodAt line pos ∧ pos ≤ line.length ∧
      parseHeaderLine line h = parseTarget line pos { h with method := some m } := by
    rw [parseHeaderLine] at hs ⊢
    simp only [find, Nat.zero_le, if_true, List.drop_zero, Nat.add_zero, Option.map_id'] at hs ⊢
    cases hget : findSub (text "GET") line with
    | some pos => exact ⟨pos, _, Or.inl hget, (findSub_lt (by decide) hget).le, rfl⟩
    | none =>
      rw [hget] at hs
      dsimp only at hs ⊢
      cases hpost : findSub (text "POST") line with
      | some pos => exact ⟨pos, _, Or.inr ⟨hget, hpost⟩, (findSub_lt (by decide) hpost).le, rfl⟩
      | none =>
        rw [hpost] at hs
        simp at hs
  rw [heq] at hs ⊢
  obtain ⟨pre, rest, rfl, rfl⟩ : ∃ pre rest, line = pre ++ rest ∧ pos = pre.length :=
    ⟨line.take pos, line.drop pos, (List.take_append_drop ..).symm, by simp [hlt]⟩
  rcases parseTarget_path pre rest _ hs with ⟨hslash, hpath⟩ |
    ⟨mid, target, tail, rfl, hmid, ht, hpath⟩
  · refine Or.inr ⟨?_, hpath⟩
    rintro target ⟨pre', mid, tail, hcut, hpos', -, -⟩
    obtain ⟨-, rfl⟩ := List.append_inj hcut (hpos.unique hpos')
    simp at hslash
  · exact Or.inl ⟨target, ⟨pre, mid, tail, rfl, hpos, hmid, ht⟩, hpath⟩

/-- A line has at most one target. -/
theorem Targets.unique {line target target' : Bytes} (h : Targets line target)
    (h' : Targets line target') : target = target' := by
  obtain ⟨pre, mid, tail, rfl, hpos, hmid, ht⟩ := h
  obtain ⟨pre', mid', tail', hcut, hpos', hmid', ht'⟩ := h'
  obtain ⟨-, hrest⟩ := List.append_inj hcut (hpos.unique hpos')
  obtain ⟨-, htarget⟩ := cut_unique hmid hmid' hrest
  exact (cut_unique ht ht' htarget).1

/-! ## What is served -/

/-- `index.html` is in the working directory. -/
theorem staysBelow_index : StaysBelow (cStr (text "index.html")) := by decide

/-- The path of a target without its query, as it is passed on. -/
theorem staysBelow_targetPath (target : Bytes) : StaysBelow (cStr (targetPath target)) ↔
    StaysBelow (cStr (target.takeWhile (· ≠ QUESTION))) := by
  by_cases hnil : target = []
  · rw [hnil]
    exact iff_of_true staysBelow_index (by decide)
  · rw [targetPath, if_neg hnil]

/--
**When the file served is under the working directory.** If and only if the path that the request
line asks for is: what stands between the `/` behind the method and the space, up to the query and
up to the first NUL byte, is passed on as it is.
-/
theorem served_below {h : Http} {line : Bytes} (hline : h.headerLine = some line)
    (hs : (parseUri h).1 = .parseUriSuccess) : StaysBelow (parseUri h).2.servedPath ↔
      ∀ target, Targets line target →
        StaysBelow (cStr (target.takeWhile (· ≠ QUESTION))) := by
  obtain ⟨rest, heq⟩ := parseUri_headerLine hline
  rw [heq] at hs ⊢
  unfold Http.servedPath
  rcases parseHeaderLine_path hs with ⟨target, htarget, hpath⟩ | ⟨hnone, hpath⟩
  · rw [hpath, staysBelow_targetPath]
    constructor
    · intro hbelow target' htarget'
      rwa [htarget'.unique htarget]
    · intro h
      exact h target htarget
  · rw [hpath]
    exact iff_of_true staysBelow_index fun target htarget => absurd htarget (hnone target)

/-- The connection with `line` and the byte that ends it in its buffer. -/
def Http.sent (line : Bytes) : Http :=
  { Http.construct true with readBuffer := line ++ [lineDelimiter] }

theorem targets_requestLine (m : HttpMethod) (target : Bytes) (v : HttpVersion)
    (hm : MethodAt (requestLine m target v) 0) (ht : SPACE ∉ target) :
    Targets (requestLine m target v) target :=
  ⟨[], m.name ++ text " ", text "HTTP" ++ SLASH :: v.name, requestLine_eq m target v, hm,
    by cases m <;> decide, ht⟩

/-- Down, up again and down to another file. -/
theorem served_below_dots :
    StaysBelow
      (parseUri (.sent (requestLine .methodGet (text "a/../b") .http11))).2.servedPath := by
  have hline : (Http.sent (requestLine .methodGet (text "a/../b") .http11)).headerLine =
      some (requestLine .methodGet (text "a/../b") .http11) := rfl
  refine (served_below hline rfl).mpr ?_
  intro target htarget
  have ht := targets_requestLine .methodGet (text "a/../b") .http11 (Or.inl rfl) (by decide)
  rw [htarget.unique ht]
  decide

/-- A second `/` makes the path absolute, and `..` in front takes it out of the directory. -/
theorem served_outside :
    (parseUri (.sent (text "GET //etc/passwd HTTP/1.1"))).1 = .parseUriSuccess ∧
      ¬ StaysBelow (parseUri (.sent (text "GET //etc/passwd HTTP/1.1"))).2.servedPath ∧
      (parseUri (.sent (text "GET /a/../../b HTTP/1.1"))).1 = .parseUriSuccess ∧
      ¬ StaysBelow (parseUri (.sent (text "GET /a/../../b HTTP/1.1"))).2.servedPath := by
  decide

end FlashWeb
