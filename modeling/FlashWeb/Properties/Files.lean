import FlashWeb.Properties.Decode
import FlashWeb.Properties.Responses

/-!
# From a file to a response

`ProcessRequest` asks `stat`, `open` and `mmap` in turn and builds the response while it does. What
it has built of a response that fails stays in `write_buffer_`, or goes with everything else that is
in there; a file of length zero cannot be mapped, so it is not served; and the type of a file is
looked up under the text from its path's first dot on, not from its last.
-/

namespace FlashWeb

/-! ## A request that fails -/

theorem stateLine_ne_nil (v : HttpVersion) : stateLine v ≠ [] := by
  cases v <;> decide

theorem handleError_writeBuffer (errCode : Nat) (errMsg : Bytes) (c : Conn) :
    (handleError errCode errMsg c).http.writeBuffer = c.http.writeBuffer := rfl

/-- What is left of the buffer is the buffer only if it was empty and is cleared. -/
theorem leftover_eq_iff (fs : FileSystem) (r : Request) (writeBuffer : Bytes) :
    fs.leftover r writeBuffer = writeBuffer ↔
      (fs.stat (cStr r.filePath)).isSome ∧ writeBuffer = [] := by
  unfold FileSystem.leftover
  split
  · next hs => exact ⟨fun h => ⟨hs, h.symm⟩, fun h => h.2.symm⟩
  · next hs =>
    refine iff_of_false ?_ fun h => hs h.1
    intro h
    exact stateLine_ne_nil r.httpVersion (List.append_right_eq_self.mp h)

/--
**When a failing request leaves the output alone.** If and only if it does not fail, or `stat`
succeeds and nothing was in the buffer that could be dropped.
-/
theorem failure_keeps_output {fs : FileSystem} {c : Conn}
    (hm : c.http.method = some .methodGet) :
    ((processRequest fs c).1 = some .processError →
        (processRequest fs c).2.http.writeBuffer = c.http.writeBuffer) ↔
      (fs.file (cStr c.http.filePath)).isSome ∨
        ((fs.stat (cStr c.http.filePath)).isSome ∧ c.http.writeBuffer = []) := by
  have hpost : c.http.method ≠ some .methodPost := by
    rw [hm]
    simp
  cases hf : fs.file (cStr c.http.filePath) with
  | some data =>
    refine iff_of_true ?_ (Or.inl rfl)
    intro herr
    rw [processRequest_served hpost hf] at herr
    simp at herr
  | none =>
    rw [processRequest_refused hpost hf, handleError_writeBuffer]
    have hleft := leftover_eq_iff fs c.http.request c.http.writeBuffer
    constructor
    · intro h
      exact Or.inr (hleft.mp (h rfl))
    · intro h _
      exact hleft.mpr (h.resolve_left (by simp))

/-- A GET request for `index.html`, with `queued` in the buffer. -/
def Conn.getting (queued : Bytes) : Conn where
  http := { Http.construct true with
    method := some .methodGet
    filePath := text "index.html"
    processState := .stateProcess
    writeBuffer := queued }
  reads := []
  writes := []
  trace := []

/-- A file that is there and cannot be opened. -/
def FileSystem.locked : FileSystem where
  stat _ := some 1
  opens _ := false
  mmap _ _ := none

/-- With nothing queued, a file that cannot be opened leaves nothing. -/
theorem failure_keeps_empty_output :
    (processRequest .locked (Conn.getting [])).1 = some .processError ∧
      (processRequest .locked (Conn.getting [])).2.http.writeBuffer = [] := by
  have hfails : (processRequest .locked (Conn.getting [])).1 = some .processError := rfl
  exact ⟨hfails, (@failure_keeps_output .locked (Conn.getting []) rfl).mpr
    (Or.inr ⟨rfl, rfl⟩) hfails⟩

/-- The beginning of a response stays behind, and with it the output queued before is dropped. -/
theorem failure_changes_output :
    (processRequest .void (Conn.getting [])).1 = some .processError ∧
      (processRequest .void (Conn.getting [])).2.http.writeBuffer ≠ [] ∧
      (processRequest .locked (Conn.getting (text "unsent"))).1 = some .processError ∧
      (processRequest .locked (Conn.getting (text "unsent"))).2.http.writeBuffer ≠
        text "unsent" := by
  decide

/-! ## A file that can be read -/

/--
A regular file with `content` that `stat` and `open` succeed on. `mmap` fails with `EINVAL` for a
length of zero and otherwise maps the bytes of the file.
-/
structure FileSystem.Regular (fs : FileSystem) (path content : Bytes) : Prop where
  stat : fs.stat path = some content.length
  opens : fs.opens path = true
  einval : fs.mmap path 0 = none
  mmap : content ≠ [] → (fs.mmap path content.length).map Subtype.val = some content

/-- The file is read if and only if it is not empty. -/
theorem FileSystem.Regular.file {fs : FileSystem} {path content : Bytes}
    (h : fs.Regular path content) :
    fs.file path = if content = [] then none else some content := by
  unfold FileSystem.file
  rw [h.stat]
  dsimp only
  rw [if_pos h.opens]
  split
  · next hnil =>
    subst hnil
    show (fs.mmap path 0).map Subtype.val = none
    rw [h.einval]
    rfl
  · next hne => exact h.mmap hne

/-- A `200` response is appended, whose `Content-Length` counts the bytes of `content` behind it. -/
structure Serves200 (fs : FileSystem) (c : Conn) (content : Bytes) : Prop where
  success : (processRequest fs c).1 = some .processSuccess
  response : ∃ response, (processRequest fs c).2.http.writeBuffer =
      c.http.writeBuffer ++ response ∧
    stateLine c.http.httpVersion <+: response ∧ nextResponse response = some (content, [])

theorem serves200_of_file {fs : FileSystem} {c : Conn} {content : Bytes} (hr : c.http.Ready)
    (hf : fs.file (cStr c.http.filePath) = some content) : Serves200 fs c content := by
  have hpost : c.http.method ≠ some .methodPost := by
    rw [hr.method]
    simp
  have hnext := nextResponse_okResponse c.http.request content []
  rw [List.append_nil] at hnext
  constructor
  · rw [processRequest_served hpost hf]
  · refine ⟨okResponse c.http.request content, ?_, ?_, hnext⟩
    · rw [processRequest_served hpost hf]
    · rw [okResponse, List.append_assoc]
      exact List.prefix_append ..

/--
**Which regular files are served.** A GET request in `STATE_PROCESS` for a regular file is answered
with the file if and only if the file is not empty.
-/
theorem regular_file_served {fs : FileSystem} {c : Conn} {content : Bytes} (hr : c.http.Ready)
    (hfile : fs.Regular (cStr c.http.filePath) content) :
    Serves200 fs c content ↔ content ≠ [] := by
  have hf := hfile.file
  constructor
  · intro hserves hnil
    rw [if_pos hnil] at hf
    have hpost : c.http.method ≠ some .methodPost := by
      rw [hr.method]
      simp
    have hsuccess := hserves.success
    rw [processRequest_refused hpost hf] at hsuccess
    simp at hsuccess
  · intro hne
    rw [if_neg hne] at hf
    exact serves200_of_file hr hf

theorem FileSystem.holding_regular (content path : Bytes) :
    (FileSystem.holding content).Regular path content where
  stat := rfl
  opens := rfl
  einval := dif_neg fun h => h.1 (List.length_eq_zero_iff.mp h.2)
  mmap hne := by
    show Option.map Subtype.val (dite _ _ _) = _
    rw [dif_pos ⟨hne, rfl⟩]
    rfl

/-- A file of two bytes is served. -/
theorem regular_file_served_ok : Serves200 (.holding (text "ok")) (Conn.getting []) (text "ok") :=
  (regular_file_served ⟨rfl, rfl⟩ (FileSystem.holding_regular _ _)).mpr (by decide)

/-- A file of no bytes is not. -/
theorem empty_file_not_served :
    (FileSystem.holding []).Regular (cStr (Conn.getting []).http.filePath) [] ∧
      (processRequest (.holding []) (Conn.getting [])).1 = some .processError ∧
      ¬ Serves200 (.holding []) (Conn.getting []) [] := by
  have herror : (processRequest (.holding []) (Conn.getting [])).1 = some .processError := by
    decide
  refine ⟨FileSystem.holding_regular _ _, herror, ?_⟩
  intro hserves
  rw [hserves.success] at herror
  simp at herror

/-! ## The type of a file -/

/-- `'.'` -/
def DOT : UInt8 := 46

/-- The value of the field `Content-Type` in the header of the first response. -/
def contentTypeOf (s : Bytes) : Option Bytes :=
  (findSub CRLFCRLF s).bind fun n => fieldValue (text "Content-Type: ") (s.take n)

/-- **The type that is sent is the one that `filetype` finds.** -/
theorem contentTypeOf_appended (a : Success) :
    contentTypeOf a.appended = some (filetype a.conn.http.filePath) := by
  obtain ⟨hend, hhead, -⟩ := findSub_okResponse a.conn.http.request a.content []
  rw [List.append_nil] at hend hhead
  rw [a.appended_eq, contentTypeOf, hend, Option.bind_some, hhead, headerText, frontLines,
    List.append_assoc]
  refine fieldValue_joinLines (by decide) (cr_notMem_filetype _) (cr_notMem_stateText _) ?_
  intro m hm
  have hconnection : CR ∉ text "Connection: Keep-Alive" ∧
      ¬ text "Content-Type: " <+: text "Connection: Keep-Alive" := ⟨by decide, by decide⟩
  have hkeep : CR ∉ text "Keep-Alive: timeout=" ++ toDecimal DEFAULT_KEEP_ALIVE_TIME ∧
      ¬ text "Content-Type: " <+:
        text "Keep-Alive: timeout=" ++ toDecimal DEFAULT_KEEP_ALIVE_TIME := by
    refine ⟨?_, not_prefix_append _ (by decide) (by decide)⟩
    rw [List.mem_append, not_or]
    exact ⟨by decide, cr_notMem_toDecimal _⟩
  split at hm
  · rw [List.mem_pair] at hm
    rcases hm with rfl | rfl
    · exact hconnection
    · exact hkeep
  · exact absurd hm List.not_mem_nil

/-- No key of the map has two dots, and only two extensions have the type of the default. -/
theorem resourceTypeMap_keys : ∀ e ∈ resourceTypeMap, e.1.count DOT ≤ 1 ∧
    (e.2 = defaultResourceType →
      e.1 = text ".html" ∨ e.1 = text ".htm" ∨ e.1 = text "default") := by
  decide

theorem mem_of_lookup {suffix ty : Bytes} (h : resourceTypeMap.lookup suffix = some ty) :
    (suffix, ty) ∈ resourceTypeMap := by
  obtain ⟨l, k, hmap, -⟩ := List.lookup_eq_some_iff.mp h
  rw [hmap]
  simp

/-- The two extensions. -/
theorem lookup_html :
    resourceTypeMap.lookup (text ".html") = some defaultResourceType ∧
      resourceTypeMap.lookup (text ".htm") = some defaultResourceType := by
  decide

/-- A text with two dots is unknown. -/
theorem getResourceType_two_dots {suffix : Bytes} (h : 1 < suffix.count DOT) :
    getResourceType suffix = defaultResourceType := by
  unfold getResourceType
  cases hl : resourceTypeMap.lookup suffix with
  | none => rfl
  | some ty =>
    have hle := (resourceTypeMap_keys _ (mem_of_lookup hl)).1
    exact absurd h (Nat.not_lt.mpr hle)

/-- The text from the first dot of a path on. -/
theorem filetype_first_dot {front rest : Bytes} (h : DOT ∉ front) :
    filetype (front ++ DOT :: rest) = getResourceType (DOT :: rest) := by
  have hfind : find (text ".") (front ++ DOT :: rest) 0 = some front.length := by
    rw [find, if_pos (Nat.zero_le _), List.drop_zero, show text "." = [DOT] by decide,
      findSub_singleton_append_cons h]
    rfl
  unfold filetype
  rw [hfind]
  dsimp only
  rw [List.drop_left' rfl]

/-- A dot in front of the last one hides the extension. -/
theorem filetype_hidden {front rest : Bytes} (h : DOT ∈ front) :
    filetype (front ++ DOT :: rest) = defaultResourceType := by
  obtain ⟨n, hn⟩ := Option.isSome_iff_exists.mp (Option.isSome_iff_ne_none.mpr fun hnone =>
    (findSub_singleton_eq_none.mp hnone) h)
  obtain ⟨hsplit, hfirst⟩ := findSub_singleton_split hn
  rw [hsplit, List.append_assoc, List.cons_append, filetype_first_dot hfirst]
  refine getResourceType_two_dots ?_
  simp

/--
**When the type follows the extension.** A text that is in the map holds no dot but its first and no
slash, so for a path that ends in one it stands behind the last dot, in the last segment. Then the
type that is sent is the one in the map if and only if the path has no other dot, or the extension
is one of the two whose type unknown files get as well.
-/
theorem content_type_of_extension (a : Success) {front rest ty : Bytes}
    (hpath : a.conn.http.filePath = front ++ DOT :: rest)
    (hty : resourceTypeMap.lookup (DOT :: rest) = some ty) :
    contentTypeOf a.appended = some ty ↔
      DOT ∉ front ∨ DOT :: rest = text ".html" ∨ DOT :: rest = text ".htm" := by
  rw [contentTypeOf_appended, hpath, Option.some.injEq]
  by_cases hdot : DOT ∈ front
  · rw [filetype_hidden hdot]
    constructor
    · intro hdefault
      rcases (resourceTypeMap_keys _ (mem_of_lookup hty)).2 hdefault.symm with h | h | h
      · exact Or.inr (Or.inl h)
      · exact Or.inr (Or.inr h)
      · have hhead : some DOT = (text "default").head? := congrArg List.head? h
        exact absurd hhead (by decide)
    · intro h
      rcases h with h | h | h
      · exact absurd hdot h
      · rw [h, lookup_html.1] at hty
        exact Option.some.inj hty
      · rw [h, lookup_html.2] at hty
        exact Option.some.inj hty
  · rw [filetype_first_dot hdot, getResourceType, hty]
    exact iff_of_true rfl (Or.inl hdot)

/-- A request for `filePath` that is answered. -/
def Success.getting (filePath : Bytes) : Success where
  fs := .holding (text "ok")
  conn := { Conn.getting [] with
    http := { (Conn.getting []).http with filePath := filePath } }
  success := by
    have hr : ({ (Conn.getting []).http with filePath := filePath } : Http).Ready := ⟨rfl, rfl⟩
    exact ((regular_file_served hr (FileSystem.holding_regular (text "ok") _)).mpr
      (by decide)).success

/-- One dot. -/
theorem content_type_of_extension_png :
    contentTypeOf (Success.getting (text "img/a.png")).appended = some (text "image/png") :=
  (@content_type_of_extension (Success.getting (text "img/a.png")) (text "img/a") (text "png") _
    (by decide) rfl).mpr (Or.inl (by decide))

/-- With a dot in front of it a picture is sent as a page. -/
theorem content_type_hidden :
    contentTypeOf (Success.getting (text "./a.png")).appended ≠ some (text "image/png") := by
  rw [contentTypeOf_appended]
  decide

end FlashWeb
