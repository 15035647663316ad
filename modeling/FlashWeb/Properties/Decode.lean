import FlashWeb.Http.ProcessRequest
import FlashWeb.Lib.Framing
import Mathlib.Data.Nat.Digits.Lemmas

/-!
# A stream of responses can be read back

A client splits what it receives at the first empty line, reads the field `Content-Length` of the
header before it and takes that many bytes as the body. The header is made of lines without a CR,
so the first empty line is its end, whatever bytes the body is made of.
-/

namespace FlashWeb

open Lib

/-! ## The reader -/

/-- The end of a line and the empty line behind it. -/
def CRLFCRLF : Bytes := [CR, LF, CR, LF]

/-- The value of the field `name`, looked for at the beginning of each line but the first. -/
def fieldValue (name head : Bytes) : Option Bytes :=
  (findSub (CR :: LF :: name) head).map fun n =>
    (head.drop (n + (name.length + 2))).takeWhile (· ≠ CR)

/-- `'0'` to `'9'` -/
def isDigit (c : UInt8) : Bool := 48 ≤ c ∧ c ≤ 57

/-- The number that `s` is in decimal. -/
def fromDecimal (s : Bytes) : Option Nat :=
  if s ≠ [] ∧ s.all isDigit then some (s.foldl (fun n c => 10 * n + (c - 48).toNat) 0) else none

/-- The body of the first response in a stream, and what is behind it. -/
def nextResponse (s : Bytes) : Option (Bytes × Bytes) := do
  let n ← findSub CRLFCRLF s
  let value ← fieldValue (text "Content-Length: ") (s.take n)
  let size ← fromDecimal value
  let rest := s.drop (n + 4)
  if size ≤ rest.length then some (rest.take size, rest.drop size) else none

/-- The bodies in a stream of responses. -/
def decodeResponses (s : Bytes) : Option (List Bytes) := decode nextResponse s

/-! ## Decimal numbers -/

theorem digit_toNat {d : Nat} (h : d < 10) : (48 + UInt8.ofNat d - 48).toNat = d := by
  have hd : (48 + UInt8.ofNat d - 48) = UInt8.ofNat d := by
    rw [UInt8.add_comm, UInt8.add_sub_cancel]
  rw [hd, UInt8.toNat_ofNat', Nat.mod_eq_of_lt (by omega)]

theorem isDigit_digit : ∀ {d : Nat}, d < 10 → isDigit (48 + UInt8.ofNat d) = true := by
  decide

/-- Digits read from the most significant one on. -/
theorem foldl_digits : ∀ {l : List Nat}, (∀ d ∈ l, d < 10) →
    (l.reverse.map fun d => 48 + UInt8.ofNat d).foldl (fun n c => 10 * n + (c - 48).toNat) 0 =
      Nat.ofDigits 10 l
  | [], _ => rfl
  | d :: l, h => by
    have hl := foldl_digits fun e he => h e (List.mem_cons_of_mem _ he)
    rw [List.reverse_cons, List.map_append, List.foldl_append, hl, Nat.ofDigits_cons]
    simp only [List.map_cons, List.map_nil, List.foldl_cons, List.foldl_nil]
    rw [digit_toNat (h d List.mem_cons_self)]
    simp [Nat.add_comm]

theorem toDecimal_isDigit {n : Nat} {c : UInt8} (h : c ∈ toDecimal n) : isDigit c = true := by
  unfold toDecimal at h
  split at h
  · rw [List.mem_singleton.mp h]
    decide
  · obtain ⟨d, hd, rfl⟩ := List.mem_map.mp h
    exact isDigit_digit (Nat.digits_lt_base (by omega) (List.mem_reverse.mp hd))

theorem toDecimal_ne_nil (n : Nat) : toDecimal n ≠ [] := by
  unfold toDecimal
  split
  · simp
  · next h => simpa [Nat.digits_ne_nil_iff_ne_zero] using h

/-- **The reader reads what `std::to_string` writes.** -/
theorem fromDecimal_toDecimal (n : Nat) : fromDecimal (toDecimal n) = some n := by
  have hall : (toDecimal n).all isDigit = true :=
    List.all_eq_true.mpr fun c hc => toDecimal_isDigit hc
  rw [fromDecimal, if_pos ⟨toDecimal_ne_nil n, hall⟩]
  congr 1
  unfold toDecimal
  split
  · next h => rw [h]; decide
  · rw [foldl_digits fun d hd => Nat.digits_lt_base (by omega) hd, Nat.ofDigits_digits]

theorem cr_notMem_toDecimal (n : Nat) : CR ∉ toDecimal n := by
  intro h
  exact absurd (toDecimal_isDigit h) (by decide)

/-! ## Lines -/

/-- Lines with an end of line between each two. -/
def joinLines : Bytes → List Bytes → Bytes
  | l, [] => l
  | l, l' :: ls => l ++ CR :: LF :: joinLines l' ls

/-- A line that is not empty and has no CR in it. -/
def PlainLine (l : Bytes) : Prop := l ≠ [] ∧ CR ∉ l

instance (l : Bytes) : Decidable (PlainLine l) := inferInstanceAs (Decidable (_ ∧ _))

theorem joinLines_cons (c : UInt8) (l : Bytes) :
    ∀ ls : List Bytes, joinLines (c :: l) ls = c :: joinLines l ls
  | [] => rfl
  | _ :: _ => rfl

theorem joinLines_append (l l' : Bytes) (ls : List Bytes) :
    ∀ front : List Bytes, joinLines l (front ++ l' :: ls) =
      joinLines l front ++ CR :: LF :: joinLines l' ls := by
  intro front
  induction front generalizing l with
  | nil => rfl
  | cons m front ih => simp [joinLines, ih]

/-- The next line begins with `l`, whatever the end of it is. -/
theorem prefix_of_joinLines {p l t : Bytes} (hp : CR ∉ p) (ht : ∃ u, t = CR :: u) :
    ∀ ls : List Bytes, p <+: joinLines l ls ++ t → p <+: l := by
  intro ls h
  cases ls with
  | nil =>
    obtain ⟨u, rfl⟩ := ht
    exact prefix_of_prefix_append_cons hp h
  | cons m ls =>
    rw [joinLines, List.append_assoc, List.cons_append] at h
    exact prefix_of_prefix_append_cons hp h

/-- A pattern that begins with CR is not found inside of a line. -/
theorem findSub_skip_line {p l t : Bytes} (hl : CR ∉ l) (h : ¬ p <+: t) :
    findSub (CR :: p) (l ++ CR :: t) = (findSub (CR :: p) t).map (· + (l.length + 1)) := by
  induction l with
  | nil =>
    rw [List.nil_append, findSub_cons_not_prefixed (by simpa [List.cons_prefix_cons] using h)]
    rfl
  | cons c l ih =>
    rw [List.mem_cons, not_or] at hl
    rw [List.cons_append, findSub_cons_not_prefixed (by simp [List.cons_prefix_cons, hl.1]),
      ih hl.2, Option.map_map]
    congr 1

theorem findSub_line_end {p l t : Bytes} (hl : CR ∉ l) (h : p <+: t) :
    findSub (CR :: p) (l ++ CR :: t) = some l.length := by
  induction l with
  | nil => exact findSub_prefixed (List.cons_prefix_cons.mpr ⟨rfl, h⟩)
  | cons c l ih =>
    rw [List.mem_cons, not_or] at hl
    rw [List.cons_append, findSub_cons_not_prefixed (by simp [List.cons_prefix_cons, hl.1]),
      ih hl.2]
    rfl

/-- **The first line, and a pattern that is not found at its end.** -/
theorem findSub_next_line {p l l' : Bytes} {ls : List Bytes} {t : Bytes} (hl : CR ∉ l)
    (h : ¬ p <+: joinLines l' ls ++ t) :
    findSub (CR :: LF :: p) (joinLines l (l' :: ls) ++ t) =
      (findSub (CR :: LF :: p) (joinLines (LF :: l') ls ++ t)).map (· + (l.length + 1)) := by
  have hnot : ¬ LF :: p <+: LF :: (joinLines l' ls ++ t) := by
    simpa [List.cons_prefix_cons] using h
  rw [joinLines, joinLines_cons, List.append_assoc, List.cons_append, List.cons_append,
    findSub_skip_line hl hnot]

/-- **The empty line behind a header is the first one.** -/
theorem findSub_header_end (rest : Bytes) : ∀ {l : Bytes} {ls : List Bytes}, CR ∉ l →
    (∀ m ∈ ls, PlainLine m) →
    findSub CRLFCRLF (joinLines l ls ++ (CRLFCRLF ++ rest)) = some (joinLines l ls).length := by
  intro l ls
  -- a line is skipped together with its CR: its LF is counted with the next one
  induction ls generalizing l with
  | nil =>
    intro hl _
    exact findSub_line_end hl ⟨rest, rfl⟩
  | cons m ls ih =>
    intro hl hls
    obtain ⟨hne, hm⟩ := hls m List.mem_cons_self
    have hnot : ¬ [CR, LF] <+: joinLines m ls ++ (CRLFCRLF ++ rest) := by
      intro h
      obtain ⟨c, m', rfl⟩ := List.exists_cons_of_ne_nil hne
      rw [joinLines_cons, List.cons_append, List.cons_prefix_cons] at h
      exact hm (by simp [h.1])
    have hlf : CR ∉ LF :: m := by
      rw [List.mem_cons, not_or]
      exact ⟨by decide, hm⟩
    have hrest := ih hlf fun x hx => hls x (List.mem_cons_of_mem _ hx)
    rw [CRLFCRLF] at hnot hrest ⊢
    rw [findSub_next_line hl hnot, hrest, joinLines, joinLines_cons]
    simp
    omega

/-- **A field is found at the first line that begins with its name.** -/
theorem findSub_field {name : Bytes} (hname : CR ∉ name) (t : Bytes) :
    ∀ {l : Bytes} {front : List Bytes}, CR ∉ l → (∀ m ∈ front, CR ∉ m ∧ ¬ name <+: m) →
      findSub (CR :: LF :: name) (joinLines l front ++ CR :: LF :: (name ++ t)) =
        some (joinLines l front).length := by
  intro l front
  induction front generalizing l with
  | nil =>
    intro hl _
    exact findSub_line_end hl ⟨t, rfl⟩
  | cons m front ih =>
    intro hl hfront
    obtain ⟨hm, hname'⟩ := hfront m List.mem_cons_self
    have hnot : ¬ name <+: joinLines m front ++ CR :: LF :: (name ++ t) :=
      fun h => hname' (prefix_of_joinLines hname ⟨_, rfl⟩ front h)
    have hlf : CR ∉ LF :: m := by
      rw [List.mem_cons, not_or]
      exact ⟨by decide, hm⟩
    have hrest := ih hlf fun x hx => hfront x (List.mem_cons_of_mem _ hx)
    rw [findSub_next_line hl hnot, hrest, joinLines, joinLines_cons]
    simp
    omega

/-- The bytes of a value are those in front of the next end of line. -/
theorem takeWhile_value {v : Bytes} (h : CR ∉ v) (t : Bytes) :
    (v ++ CR :: t).takeWhile (· ≠ CR) = v := by
  induction v with
  | nil => simp
  | cons c v ih =>
    rw [List.mem_cons, not_or] at h
    rw [List.cons_append, List.takeWhile_cons_of_pos (by simpa using Ne.symm h.1), ih h.2]

/-- **The reader finds the field behind any lines that have other names.** -/
theorem fieldValue_joinLines {name value l l' : Bytes} {front ls : List Bytes}
    (hname : CR ∉ name) (hvalue : CR ∉ value) (hl : CR ∉ l)
    (hfront : ∀ m ∈ front, CR ∉ m ∧ ¬ name <+: m) :
    fieldValue name (joinLines l (front ++ (name ++ value) :: l' :: ls)) = some value := by
  have hsplit : joinLines l (front ++ (name ++ value) :: l' :: ls) =
      joinLines l front ++ CR :: LF :: (name ++ (value ++ CR :: LF :: joinLines l' ls)) := by
    rw [joinLines_append, joinLines, List.append_assoc]
  have hdrop : (joinLines l (front ++ (name ++ value) :: l' :: ls)).drop
      ((joinLines l front).length + (name.length + 2)) =
      value ++ CR :: LF :: joinLines l' ls := by
    have hsplit' : joinLines l (front ++ (name ++ value) :: l' :: ls) =
        (joinLines l front ++ CR :: LF :: name) ++ (value ++ CR :: LF :: joinLines l' ls) := by
      rw [hsplit]
      simp
    rw [hsplit', List.drop_left' (by simp)]
  rw [fieldValue, Option.map_eq_some_iff]
  refine ⟨(joinLines l front).length, ?_, ?_⟩
  · rw [hsplit]
    exact findSub_field hname _ hl hfront
  · rw [hdrop, takeWhile_value hvalue]

/-! ## The header of a response -/

/-- The lines behind `state_line` and in front of `Content-Length`. -/
def frontLines (r : Request) : List Bytes :=
  (if wantsKeepAlive r.headerKv then
    [text "Connection: Keep-Alive",
      text "Keep-Alive: timeout=" ++ toDecimal DEFAULT_KEEP_ALIVE_TIME]
  else []) ++ [text "Content-Type: " ++ filetype r.filePath]

/-- `state_line` without its end of line. -/
def stateText (v : HttpVersion) : Bytes :=
  text "HTTP/" ++ (match v with | .http11 => text "1.1" | .http10 => text "1.0") ++ text " 200 OK"

/-- The header of a response with a body of `size` bytes, without the empty line. -/
def headerText (r : Request) (size : Nat) : Bytes :=
  joinLines (stateText r.httpVersion) (frontLines r ++
    (text "Content-Length: " ++ toDecimal size) :: text "Server: FlashWeb Server" :: [])

theorem stateLine_eq : ∀ v : HttpVersion, stateLine v = stateText v ++ [CR, LF]
  | .http11 => rfl
  | .http10 => rfl

/-- **A response is lines, an empty line and the data.** -/
theorem okResponse_lines (r : Request) (data : Bytes) :
    okResponse r data = headerText r data.length ++ (CRLFCRLF ++ data) := by
  have hend : text "\r\n" = [CR, LF] := rfl
  have hserver : text "Server: FlashWeb Server\r\n" =
      text "Server: FlashWeb Server" ++ [CR, LF] := rfl
  have hkeep : text "Connection: Keep-Alive\r\n" =
      text "Connection: Keep-Alive" ++ [CR, LF] := rfl
  rw [okResponse, stateLine_eq, keepAliveHeader, contentHeader, headerText, frontLines, hend,
    hserver, hkeep, CRLFCRLF]
  cases wantsKeepAlive r.headerKv <;> simp [joinLines]

/-- A state line has no CR in front of its end. -/
theorem cr_notMem_stateText : ∀ v : HttpVersion, CR ∉ stateText v
  | .http11 => by decide
  | .http10 => by decide

/-- The map holds no CR. -/
theorem cr_notMem_resourceType : ∀ e ∈ resourceTypeMap, CR ∉ e.2 := by
  decide

theorem cr_notMem_getResourceType (suffix : Bytes) : CR ∉ getResourceType suffix := by
  rw [getResourceType]
  cases h : resourceTypeMap.lookup suffix with
  | none => decide
  | some v =>
    obtain ⟨l, k, hmap, -⟩ := List.lookup_eq_some_iff.mp h
    exact cr_notMem_resourceType (suffix, v) (by simp [hmap])

theorem cr_notMem_filetype (filePath : Bytes) : CR ∉ filetype filePath := by
  unfold filetype
  split <;> exact cr_notMem_getResourceType _

/-- What begins with one of two names that part somewhere does not begin with the other. -/
theorem not_prefix_append {p q : Bytes} (s : Bytes) (hpq : ¬ p <+: q) (hqp : ¬ q <+: p) :
    ¬ p <+: q ++ s := by
  intro hp
  rcases List.prefix_or_prefix_of_prefix hp (List.prefix_append q s) with h | h
  · exact hpq h
  · exact hqp h

theorem plainLine_field {name value : Bytes} (hname : PlainLine name) (hvalue : CR ∉ value) :
    PlainLine (name ++ value) := by
  refine ⟨by simp [hname.1], ?_⟩
  rw [List.mem_append, not_or]
  exact ⟨hname.2, hvalue⟩

/-- **No line in front of `Content-Length` holds a CR or begins like it.** -/
theorem frontLines_spec (r : Request) : ∀ m ∈ frontLines r,
    PlainLine m ∧ ¬ text "Content-Length: " <+: m := by
  have hconnection : PlainLine (text "Connection: Keep-Alive") ∧
      ¬ text "Content-Length: " <+: text "Connection: Keep-Alive" := ⟨by decide, by decide⟩
  have hkeep : PlainLine (text "Keep-Alive: timeout=" ++ toDecimal DEFAULT_KEEP_ALIVE_TIME) ∧
      ¬ text "Content-Length: " <+:
        text "Keep-Alive: timeout=" ++ toDecimal DEFAULT_KEEP_ALIVE_TIME :=
    ⟨plainLine_field (by decide) (cr_notMem_toDecimal _),
      not_prefix_append _ (by decide) (by decide)⟩
  have htype : PlainLine (text "Content-Type: " ++ filetype r.filePath) ∧
      ¬ text "Content-Length: " <+: text "Content-Type: " ++ filetype r.filePath :=
    ⟨plainLine_field (by decide) (cr_notMem_filetype _),
      not_prefix_append _ (by decide) (by decide)⟩
  intro m hm
  rw [frontLines, List.mem_append, List.mem_singleton] at hm
  rcases hm with hm | rfl
  · split at hm
    · rw [List.mem_pair] at hm
      rcases hm with rfl | rfl
      · exact hconnection
      · exact hkeep
    · simp at hm
  · exact htype

/-! ## Reading it back -/

/-- The reader finds where the header of a response ends. -/
theorem findSub_okResponse (r : Request) (data rest : Bytes) :
    findSub CRLFCRLF (okResponse r data ++ rest) = some (headerText r data.length).length ∧
      (okResponse r data ++ rest).take (headerText r data.length).length =
        headerText r data.length ∧
      (okResponse r data ++ rest).drop ((headerText r data.length).length + 4) = data ++ rest := by
  have hstream : okResponse r data ++ rest =
      headerText r data.length ++ (CRLFCRLF ++ (data ++ rest)) := by
    rw [okResponse_lines]
    simp
  have hlines : ∀ m ∈ frontLines r ++
      [text "Content-Length: " ++ toDecimal data.length, text "Server: FlashWeb Server"],
      PlainLine m := by
    intro m hm
    rw [List.mem_append, List.mem_pair] at hm
    rcases hm with hm | rfl | rfl
    · exact (frontLines_spec r m hm).1
    · exact plainLine_field (by decide) (cr_notMem_toDecimal _)
    · decide
  rw [hstream]
  refine ⟨findSub_header_end _ (cr_notMem_stateText _) hlines, List.take_left' rfl, ?_⟩
  rw [← List.append_assoc, List.drop_left' (by simp [CRLFCRLF])]

/-- **The reader takes one response off the front of the stream.** -/
theorem nextResponse_okResponse (r : Request) (data rest : Bytes) :
    nextResponse (okResponse r data ++ rest) = some (data, rest) := by
  obtain ⟨hend, hhead, hbody⟩ := findSub_okResponse r data rest
  have hfield : fieldValue (text "Content-Length: ") (headerText r data.length) =
      some (toDecimal data.length) :=
    fieldValue_joinLines (by decide) (cr_notMem_toDecimal _) (cr_notMem_stateText _)
      fun m hm => ⟨(frontLines_spec r m hm).1.2, (frontLines_spec r m hm).2⟩
  simp only [nextResponse, hend, hhead, hfield, fromDecimal_toDecimal, hbody, Option.bind_eq_bind,
    Option.bind_some]
  rw [if_pos (by simp), List.take_left' rfl, List.drop_left' rfl]

/-- A call of `ProcessRequest` that returns `ProcessSuccess`. -/
structure Success where
  fs : FileSystem
  conn : Conn
  success : (processRequest fs conn).1 = some .processSuccess

namespace Success

variable (a : Success)

/-- `write_buffer_` before the call -/
def before : Bytes := a.conn.http.writeBuffer

/-- `write_buffer_` after the call -/
def after : Bytes := (processRequest a.fs a.conn).2.http.writeBuffer

/-- What the call appends. -/
def appended : Bytes := a.after.drop a.before.length

/-- What the file holds. -/
def content : Bytes := (a.fs.file (cStr a.conn.http.filePath)).getD []

/-- A POST has no result, and a file that cannot be read gives `ProcessError`. -/
theorem file_eq : a.conn.http.method ≠ some .methodPost ∧
    a.fs.file (cStr a.conn.http.filePath) = some a.content := by
  have hsuccess := a.success
  have hmethod : a.conn.http.method ≠ some .methodPost := by
    intro h
    rw [processRequest, if_pos h] at hsuccess
    simp at hsuccess
  refine ⟨hmethod, ?_⟩
  cases hf : a.fs.file (cStr a.conn.http.filePath) with
  | none =>
    rw [processRequest_refused hmethod hf] at hsuccess
    simp at hsuccess
  | some data => rw [content, hf, Option.getD_some]

theorem after_eq : a.after = a.before ++ okResponse a.conn.http.request a.content := by
  rw [after, processRequest_served a.file_eq.1 a.file_eq.2, before]

theorem appended_eq : a.appended = okResponse a.conn.http.request a.content := by
  rw [appended, after_eq, List.drop_left' rfl]

end Success

/-- Successful calls of `ProcessRequest` as a way of writing files into a stream. -/
def responseFraming : Framing UInt8 Success Bytes where
  encode := Success.appended
  content := Success.content
  next := nextResponse
  encode_ne_nil a := by
    rw [a.appended_eq, okResponse_lines]
    simp [CRLFCRLF]
  next_encode a rest := by
    rw [a.appended_eq]
    exact nextResponse_okResponse _ _ _

/--
**The responses can be told apart: what a list of successful calls appends decodes to the contents
of their files, in order and with nothing left over.**
-/
theorem decodeResponses_appended (answers : List Success) :
    (∀ a ∈ answers, a.after = a.before ++ a.appended ∧
      a.fs.file (cStr a.conn.http.filePath) = some a.content) ∧
    decodeResponses (answers.flatMap Success.appended) = some (answers.map Success.content) := by
  constructor
  · intro a _
    rw [a.appended_eq]
    exact ⟨a.after_eq, a.file_eq.2⟩
  · exact responseFraming.decode_flatMap answers

/-- A file system in which every path is a regular file with `content`. -/
def FileSystem.holding (content : Bytes) : FileSystem where
  stat _ := some content.length
  opens _ := true
  mmap _ len :=
    if h : content ≠ [] ∧ content.length = len then some ⟨content, h.2⟩ else none

/-- A file with an empty line in it. -/
def twoParts : Bytes := text "a\r\n\r\nb"

/-- A `GET` request with nothing in `write_buffer_`. -/
def firstCall : Conn where
  http := { Http.construct true with method := some .methodGet }
  reads := []
  writes := []
  trace := []

theorem firstCall_success :
    (processRequest (.holding twoParts) firstCall).1 = some .processSuccess := by decide

/-- The same request again, behind the response to the first. -/
def secondCall : Conn := (processRequest (.holding twoParts) firstCall).2

theorem secondCall_success :
    (processRequest (.holding (text "ok")) secondCall).1 = some .processSuccess := by decide

/-- Two responses one behind the other, the first with an empty line in its body. -/
theorem decodeResponses_appended_twoParts :
    decodeResponses (processRequest (.holding (text "ok")) secondCall).2.http.writeBuffer =
      some [twoParts, text "ok"] := by
  let first : Success := ⟨.holding twoParts, firstCall, firstCall_success⟩
  let second : Success := ⟨.holding (text "ok"), secondCall, secondCall_success⟩
  obtain ⟨hafter, hdecode⟩ := decodeResponses_appended [first, second]
  have hfirst : first.after = first.appended := (hafter first List.mem_cons_self).1
  have hsecond : second.after = first.appended ++ second.appended := by
    rw [(hafter second (List.mem_cons_of_mem _ List.mem_cons_self)).1, ← hfirst]
    rfl
  have hcontents : [first, second].map Success.content = [twoParts, text "ok"] := by decide
  have hbytes : [first, second].flatMap Success.appended = second.after := by
    rw [hsecond]
    simp
  rw [hbytes, hcontents] at hdecode
  exact hdecode

end FlashWeb
