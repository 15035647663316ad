import FlashWeb.Http.ParseHeaders
import FlashWeb.Http.ParseUri
import FlashWeb.Lib.Words

/-!
# The parsers with positions in `int`

`ParseURI` and `ParseHeaders` as they compute: what `find` returns is a `size_t`, it is kept in an
`int`, and it is turned back into a `size_t` where it is compared with a size, subtracted from one
or handed to `substr`. `substr` throws when it is asked to start behind the end of its string. Here
that is a fault, which ends the call, and so is a size minus a position that wraps.

On a buffer of fewer than `2^31` bytes there is no fault and the parsers do what `parseUri` and
`parseHeaders` do with exact positions; this is proved in `FlashWeb/Properties/Bounds.lean`.
-/

namespace FlashWeb

open Lib

/-! ## Conversions -/

/-- A value stored in an `int`. -/
def toInt (i : Int) : Int := Words.signed 32 i

/-- A value converted to `size_t`. -/
def toSize (i : Int) : Nat := Words.unsigned 64 i

/-- `std::string::npos` -/
def npos : Nat := 2 ^ 64 - 1

/-! ## Strings -/

/-- What must not happen. -/
inductive Fault where
  /-- `std::out_of_range`, thrown by `substr` -/
  | outOfRange (pos size : Nat)
  /-- `size - pos` below zero, in `size_t` -/
  | wraps (size pos : Nat)
  deriving DecidableEq, Repr

/-- `s.find(pat, pos)` -/
def findPos (pat s : Bytes) (pos : Nat) : Nat := (find pat s pos).getD npos

/-- `s.substr(pos, len)` -/
def substrAt (s : Bytes) (pos len : Nat) : Except Fault Bytes :=
  if pos ≤ s.length then .ok (substr s pos len) else .error (.outOfRange pos s.length)

/-- `s.size() - pos` -/
def sizeMinus (s : Bytes) (pos : Nat) : Except Fault Nat :=
  if pos ≤ s.length then .ok (s.length - pos) else .error (.wraps s.length pos)

/-! ## ParseURI -/

/-- The version at the end of the line, after position `pos`. -/
def parseVersionInt (headerLine : Bytes) (pos : Int) (h : Http) :
    Except Fault (ParseUriState × Http) :=
  let pos := toInt (findPos (text "/") headerLine (toSize pos))
  if pos < 0 then .ok (.parseUriError, h)
  else do
    let left ← sizeMinus headerLine (toSize pos)
    if left ≤ 3 then .ok (.parseUriError, h)
    else do
      let version ← substrAt headerLine (toSize (toInt (pos + 1))) 3
      if version = text "1.0" then .ok (.parseUriSuccess, { h with httpVersion := .http10 })
      else if version = text "1.1" then .ok (.parseUriSuccess, { h with httpVersion := .http11 })
      else .ok (.parseUriError, h)

/-- The path between the `/` at `pos` and the space at `spacePos`, without its query. -/
def parsePathInt (headerLine : Bytes) (pos spacePos : Int) : Except Fault Bytes :=
  if toInt (spacePos - pos) > 1 then do
    let path ← substrAt headerLine (toSize (toInt (pos + 1)))
      (toSize (toInt (toInt (spacePos - pos) - 1)))
    let questionMarkPos := toInt (findPos (text "?") path 0)
    if questionMarkPos ≥ 0 then substrAt path 0 (toSize questionMarkPos) else .ok path
  else .ok (text "index.html")

/-- The path and the version, looked for from the method at `pos` on. -/
def parseTargetInt (headerLine : Bytes) (pos : Int) (h : Http) :
    Except Fault (ParseUriState × Http) :=
  let pos := toInt (findPos (text "/") headerLine (toSize pos))
  if pos < 0 then
    .ok (.parseUriSuccess, { h with filePath := text "index.html", httpVersion := .http11 })
  else
    let spacePos := toInt (findPos (text " ") headerLine (toSize pos))
    if spacePos < 0 then .ok (.parseUriError, h)
    else do
      let path ← parsePathInt headerLine pos spacePos
      parseVersionInt headerLine spacePos { h with filePath := path }

/-- The part of `ParseURI` that works on `header_line`. -/
def parseHeaderLineInt (headerLine : Bytes) (h : Http) : Except Fault (ParseUriState × Http) :=
  let posGet := toInt (findPos (text "GET") headerLine 0)
  let posPost := toInt (findPos (text "POST") headerLine 0)
  if posGet ≥ 0 then parseTargetInt headerLine posGet { h with method := some .methodGet }
  else if posPost ≥ 0 then parseTargetInt headerLine posPost { h with method := some .methodPost }
  else .ok (.parseUriError, h)

/-- `Http::ParseURI` -/
def parseUriInt (h : Http) : Except Fault (ParseUriState × Http) :=
  let pos := toInt (findPos [lineDelimiter] h.readBuffer 0)
  if pos < 0 then .ok (.parseUriAgain, h)
  else do
    let headerLine ← substrAt h.readBuffer 0 (toSize pos)
    let rest ←
      if h.readBuffer.length > toSize (toInt (pos + 1)) then
        substrAt h.readBuffer (toSize (toInt (pos + 1))) npos
      else .ok []
    parseHeaderLineInt headerLine { h with readBuffer := rest }

/-! ## ParseHeaders -/

/-- The members and locals of `ParseHeaders`, `now_read_line_begin` being an `int` too. -/
structure HeaderLoopInt where
  headerLineState : HeaderLineState
  headerKv : HeaderMap
  keyStart : Int
  keyEnd : Int
  valueStart : Int
  valueEnd : Int
  nowReadLineBegin : Int
  notFinish : Bool
  i : Nat

/-- The body of the loop, for `str[i] = c`. In `i - value_start` both sides are `size_t`. -/
def headerStepInt (before : UInt8) (str : Bytes) (c : UInt8) (l : HeaderLoopInt) :
    Except HeaderLoopInt HeaderLoopInt :=
  match l.headerLineState with
  | .hStart =>
    if c = LF ∨ c = CR then .ok l
    else
      .ok { l with
        headerLineState := .hKey, keyStart := toInt l.i, nowReadLineBegin := toInt l.i }
  | .hKey =>
    if c = COLON then
      let l := { l with keyEnd := toInt l.i }
      if toInt (l.keyEnd - l.keyStart) ≤ 0 then .error l
      else .ok { l with headerLineState := .hColon }
    else if c = LF ∨ c = CR then .error l
    else .ok l
  | .hColon =>
    if c = SPACE then .ok { l with headerLineState := .hSpacesAfterColon } else .error l
  | .hSpacesAfterColon => .ok { l with headerLineState := .hValue, valueStart := toInt l.i }
  | .hValue =>
    if c = CR then
      let l := { l with headerLineState := .hCr, valueEnd := toInt l.i }
      if toInt (l.valueEnd - l.valueStart) ≤ 0 then .error l else .ok l
    else if toSize ((l.i : Int) - toSize l.valueStart) > 255 then .error l
    else .ok l
  | .hCr =>
    if c = LF then
      let key := range before str l.keyStart l.keyEnd
      let value := range before str l.valueStart l.valueEnd
      .ok { l with
        headerLineState := .hLf, headerKv := l.headerKv.set key value,
        nowReadLineBegin := toInt l.i }
    else .error l
  | .hLf =>
    if c = CR then .ok { l with headerLineState := .hEndCr }
    else .ok { l with keyStart := toInt l.i, headerLineState := .hKey }
  | .hEndCr => if c = LF then .ok { l with headerLineState := .hEndLf } else .error l
  | .hEndLf =>
    .ok { l with notFinish := false, keyStart := toInt l.i, nowReadLineBegin := toInt l.i }

/-- `for (; i < str.size() && notFinish; ++i)`, with the bytes from `i` on. -/
def headerLoopInt (before : UInt8) (str : Bytes) :
    Bytes → HeaderLoopInt → Except HeaderLoopInt HeaderLoopInt
  | [], l => .ok l
  | c :: rest, l =>
    if l.notFinish then
      match headerStepInt before str c l with
      | .error l => .error l
      | .ok l => headerLoopInt before str rest { l with i := l.i + 1 }
    else .ok l

/-- The locals as `ParseHeaders` declares them. -/
def HeaderLoopInt.enter (h : Http) : HeaderLoopInt where
  headerLineState := h.headerLineState
  headerKv := h.headerKv
  keyStart := -1
  keyEnd := -1
  valueStart := -1
  valueEnd := -1
  nowReadLineBegin := 0
  notFinish := true
  i := 0

/-- `Http::ParseHeaders` -/
def parseHeadersInt (before : UInt8) (h : Http) : Except Fault (ParseHeaderState × Http) :=
  match headerLoopInt before h.readBuffer h.readBuffer (HeaderLoopInt.enter h) with
  | .error l =>
    .ok (.parseHeaderError, { h with headerLineState := l.headerLineState, headerKv := l.headerKv })
  | .ok l =>
    let h := { h with headerLineState := l.headerLineState, headerKv := l.headerKv }
    if l.headerLineState = .hEndLf then do
      let rest ← substrAt h.readBuffer l.i npos
      .ok (.parseHeaderSuccess, { h with readBuffer := rest })
    else do
      let rest ← substrAt h.readBuffer (toSize l.nowReadLineBegin) npos
      .ok (.parseHeaderAgain, { h with readBuffer := rest })

end FlashWeb
