import FlashWeb.Http.State

/-!
# `Http::ParseURI`

The request line. The delimiter that `ParseURI` looks for is written `'/r'`, a character constant
of two characters; `g++` gives it the value `'/' * 256 + 'r'` and `std::string::find` takes it as a
`char`, which keeps the lower eight bits. Everything after the cut works on the line alone.
-/

namespace FlashWeb

/-- The value of the constant `'/r'` as a `char`. -/
def lineDelimiter : UInt8 := UInt8.ofNat (47 * 256 + 114)

/-- The version at the end of the line, after position `pos`. -/
def parseVersion (headerLine : Bytes) (pos : Nat) (h : Http) : ParseUriState × Http :=
  match find (text "/") headerLine pos with
  | none => (.parseUriError, h)
  | some pos =>
    if headerLine.length - pos ≤ 3 then (.parseUriError, h)
    else
      let version := substr headerLine (pos + 1) 3
      if version = text "1.0" then (.parseUriSuccess, { h with httpVersion := .http10 })
      else if version = text "1.1" then (.parseUriSuccess, { h with httpVersion := .http11 })
      else (.parseUriError, h)

/-- The path between the `/` at `pos` and the space at `spacePos`, without its query. -/
def parsePath (headerLine : Bytes) (pos spacePos : Nat) : Bytes :=
  if spacePos - pos > 1 then
    let path := substr headerLine (pos + 1) (spacePos - pos - 1)
    match find (text "?") path 0 with
    | some questionMarkPos => substr path 0 questionMarkPos
    | none => path
  else text "index.html"

/-- The path and the version, looked for from the method at `pos` on. -/
def parseTarget (headerLine : Bytes) (pos : Nat) (h : Http) : ParseUriState × Http :=
  match find (text "/") headerLine pos with
  | none =>
    (.parseUriSuccess, { h with filePath := text "index.html", httpVersion := .http11 })
  | some pos =>
    match find (text " ") headerLine pos with
    | none => (.parseUriError, h)
    | some spacePos =>
      parseVersion headerLine spacePos { h with filePath := parsePath headerLine pos spacePos }

/-- The part of `ParseURI` that works on `header_line`. -/
def parseHeaderLine (headerLine : Bytes) (h : Http) : ParseUriState × Http :=
  match find (text "GET") headerLine 0 with
  | some posGet => parseTarget headerLine posGet { h with method := some .methodGet }
  | none =>
    match find (text "POST") headerLine 0 with
    | some posPost => parseTarget headerLine posPost { h with method := some .methodPost }
    | none => (.parseUriError, h)

/-- `Http::ParseURI` -/
def parseUri (h : Http) : ParseUriState × Http :=
  match find [lineDelimiter] h.readBuffer 0 with
  | none => (.parseUriAgain, h)
  | some pos =>
    parseHeaderLine (h.readBuffer.take pos)
      { h with readBuffer :=
          if h.readBuffer.length > pos + 1 then h.readBuffer.drop (pos + 1) else [] }

/-- The delimiter is the letter `r`, not the carriage return. -/
theorem lineDelimiter_eq : lineDelimiter = 114 := by decide

/-! ## What `ParseURI` writes

A line that is accepted says the method, the path and the version; nothing of what these fields
held before is left. A line that is rejected may have changed any of the three.
-/

/-- The connection with the three fields of a request line set. -/
def Http.setLine (h : Http) (m : Option HttpMethod) (path : Bytes) (v : HttpVersion) : Http :=
  { h with method := m, filePath := path, httpVersion := v }

theorem parseVersion_spec (headerLine : Bytes) (pos : Nat) :
    (∃ v, ∀ h, parseVersion headerLine pos h = (.parseUriSuccess, { h with httpVersion := v })) ∨
      ∀ h, parseVersion headerLine pos h = (.parseUriError, h) := by
  unfold parseVersion
  cases find (text "/") headerLine pos with
  | none => exact Or.inr fun _ => rfl
  | some pos =>
    dsimp only
    split
    · exact Or.inr fun _ => rfl
    · split
      · exact Or.inl ⟨_, fun _ => rfl⟩
      · split
        · exact Or.inl ⟨_, fun _ => rfl⟩
        · exact Or.inr fun _ => rfl

theorem parseTarget_spec (headerLine : Bytes) (pos : Nat) :
    (∃ path v, ∀ h, parseTarget headerLine pos h =
        (.parseUriSuccess, h.setLine h.method path v)) ∨
      ∃ path : Bytes → Bytes, ∀ h, parseTarget headerLine pos h =
        (.parseUriError, h.setLine h.method (path h.filePath) h.httpVersion) := by
  unfold parseTarget
  cases find (text "/") headerLine pos with
  | none => exact Or.inl ⟨_, _, fun _ => rfl⟩
  | some pos =>
    dsimp only
    cases find (text " ") headerLine pos with
    | none => exact Or.inr ⟨id, fun _ => rfl⟩
    | some spacePos =>
      dsimp only
      rcases parseVersion_spec headerLine spacePos with ⟨v, hv⟩ | hv
      · exact Or.inl ⟨parsePath headerLine pos spacePos, v, fun h => hv _⟩
      · exact Or.inr ⟨fun _ => parsePath headerLine pos spacePos, fun h => hv _⟩

/--
**What a request line does depends on the line alone, unless it is rejected.** Then what is left in
the method and in the path depends on nothing but the line and what was there before.
-/
theorem parseHeaderLine_spec (headerLine : Bytes) :
    (∃ m path v, ∀ h, parseHeaderLine headerLine h =
        (.parseUriSuccess, h.setLine (some m) path v)) ∨
      ∃ (m : Option HttpMethod → Option HttpMethod) (path : Bytes → Bytes),
        ∀ h, parseHeaderLine headerLine h =
          (.parseUriError, h.setLine (m h.method) (path h.filePath) h.httpVersion) := by
  unfold parseHeaderLine
  cases find (text "GET") headerLine 0 with
  | some posGet =>
    rcases parseTarget_spec headerLine posGet with ⟨path, v, hp⟩ | hp
    · exact Or.inl ⟨.methodGet, path, v, fun h => hp _⟩
    · obtain ⟨path, hpath⟩ := hp
      exact Or.inr ⟨fun _ => some .methodGet, path, fun h => hpath _⟩
  | none =>
    dsimp only
    cases find (text "POST") headerLine 0 with
    | some posPost =>
      rcases parseTarget_spec headerLine posPost with ⟨path, v, hp⟩ | hp
      · exact Or.inl ⟨.methodPost, path, v, fun h => hp _⟩
      · obtain ⟨path, hpath⟩ := hp
        exact Or.inr ⟨fun _ => some .methodPost, path, fun h => hpath _⟩
    | none => exact Or.inr ⟨id, id, fun _ => rfl⟩

/-! ## The cut -/

/-- Without the delimiter nothing happens. -/
theorem parseUri_again {h : Http} (hd : lineDelimiter ∉ h.readBuffer) :
    parseUri h = (.parseUriAgain, h) := by
  have hnone : find [lineDelimiter] h.readBuffer 0 = none := by
    simp [find, findSub_singleton_eq_none.mpr hd]
  rw [parseUri, hnone]

/-- **`ParseURI` reads the bytes before the first delimiter and keeps those after it.** -/
theorem parseUri_append {line rest : Bytes} (h : Http) (hl : lineDelimiter ∉ line)
    (hb : h.readBuffer = line ++ lineDelimiter :: rest) :
    parseUri h = parseHeaderLine line { h with readBuffer := rest } := by
  have hfind : find [lineDelimiter] h.readBuffer 0 = some line.length := by
    simp [find, hb, findSub_singleton_append_cons hl]
  rw [parseUri, hfind]
  dsimp only
  rw [hb, List.take_left' rfl]
  congr 2
  cases rest with
  | nil => simp
  | cons c rest => simp

/-- The buffer either has no delimiter or is cut at the first one. -/
theorem parseUri_cases (h : Http) :
    (lineDelimiter ∉ h.readBuffer ∧ parseUri h = (.parseUriAgain, h)) ∨
      ∃ line rest, lineDelimiter ∉ line ∧ h.readBuffer = line ++ lineDelimiter :: rest ∧
        parseUri h = parseHeaderLine line { h with readBuffer := rest } := by
  by_cases hd : lineDelimiter ∈ h.readBuffer
  · obtain ⟨line, rest, hb, hl⟩ := List.eq_append_cons_of_mem hd
    exact Or.inr ⟨line, rest, hl, hb, parseUri_append h hl hb⟩
  · exact Or.inl ⟨hd, parseUri_again hd⟩

end FlashWeb
