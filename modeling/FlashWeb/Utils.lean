import FlashWeb.Kernel

/-!
# Reading and writing a descriptor

`Utils::ReadFromFd` and the two overloads of `Utils::WriteToFd`. Each is a loop over the results
of the system call, and each stops at the result that makes the source's loop return.
-/

namespace FlashWeb

/-! ## ReadFromFd -/

/-- What `ReadFromFd` leaves behind. -/
structure ReadOutcome where
  /-- the value returned -/
  readSize : Int
  zero : Bool
  inBuffer : Bytes
  /-- the results of `read` that were not asked for -/
  reads : List ReadResult

def readLoop : List ReadResult → (readSize : Nat) → (inBuffer : Bytes) → ReadOutcome
  | [], n, buf => ⟨n, false, buf, []⟩
  | .eagain :: rs, n, buf => ⟨n, false, buf, rs⟩
  | .eintr :: rs, n, buf => readLoop rs n buf
  | .failed :: rs, _, buf => ⟨-1, false, buf, rs⟩
  | .eof :: rs, n, buf => ⟨n, true, buf, rs⟩
  | .data chunk :: rs, n, buf => readLoop rs (n + chunk.bytes.length) (buf ++ chunk.bytes)

/-- `Utils::ReadFromFd` -/
def readFromFd (reads : List ReadResult) (inBuffer : Bytes) : ReadOutcome :=
  readLoop reads 0 inBuffer

/-! ## WriteToFd -/

/-- How a loop over `write` ended. -/
structure WriteLoop where
  /-- `true` when the loop returned `-1` -/
  failed : Bool
  /-- the bytes the kernel took, in order -/
  sent : Bytes
  /-- the results of `write` that were not asked for -/
  writes : List WriteResult

/-- The loop of `WriteToFd(int, std::string&)`: a result of `0` ends it. -/
def writeLoop : List WriteResult → (ptr sent : Bytes) → WriteLoop
  | [], ptr, sent => ⟨false, sent ++ ptr, []⟩
  | w :: ws, ptr, sent =>
    if ptr = [] then ⟨false, sent, w :: ws⟩
    else
      match w with
      | .eintr => writeLoop ws ptr sent
      | .eagain => ⟨false, sent, ws⟩
      | .failed => ⟨true, sent, ws⟩
      | .wrote k =>
        if k = 0 then ⟨false, sent, ws⟩ else writeLoop ws (ptr.drop k) (sent ++ ptr.take k)

/-- The loop of `WriteToFd(int, void*, size_t)`: a result of `0` is tried again. -/
def writeLoopRaw : List WriteResult → (ptr sent : Bytes) → WriteLoop
  | [], ptr, sent => ⟨false, sent ++ ptr, []⟩
  | w :: ws, ptr, sent =>
    if ptr = [] then ⟨false, sent, w :: ws⟩
    else
      match w with
      | .eintr => writeLoopRaw ws ptr sent
      | .eagain => ⟨false, sent, ws⟩
      | .failed => ⟨true, sent, ws⟩
      | .wrote k => writeLoopRaw ws (ptr.drop k) (sent ++ ptr.take k)

/-- What `WriteToFd` leaves behind. -/
structure WriteOutcome where
  /-- the value returned -/
  ret : Int
  outBuffer : Bytes
  sent : Bytes
  writes : List WriteResult

/--
`Utils::WriteToFd(int, std::string&)`. The buffer is cut at the end only: a result of `-1`
leaves it as it was, whatever the kernel took before the error.
-/
def writeToFd (writes : List WriteResult) (outBuffer : Bytes) : WriteOutcome :=
  let l := writeLoop writes outBuffer []
  if l.failed then ⟨-1, outBuffer, l.sent, l.writes⟩
  else ⟨l.sent.length, outBuffer.drop l.sent.length, l.sent, l.writes⟩

/-- `Utils::WriteToFd(int, void*, size_t)` -/
def writeToFdRaw (writes : List WriteResult) (buff : Bytes) : WriteOutcome :=
  let l := writeLoopRaw writes buff []
  ⟨if l.failed then -1 else l.sent.length, buff, l.sent, l.writes⟩

/-! ## What the loops do -/

/-- **`ReadFromFd` only appends, and what it appends is what the kernel delivered.** -/
theorem readLoop_spec : ∀ (rs : List ReadResult) (n : Nat) (buf : Bytes),
    ∃ got, (readLoop rs n buf).inBuffer = buf ++ got ∧
      delivered rs = got ++ delivered (readLoop rs n buf).reads ∧
      ((readLoop rs n buf).readSize = -1 ∨ (readLoop rs n buf).readSize = n + got.length)
  | [], n, buf => ⟨[], by simp [readLoop, delivered]⟩
  | .eagain :: rs, n, buf => ⟨[], by simp [readLoop, delivered]⟩
  | .eintr :: rs, n, buf => by simpa [readLoop, delivered] using readLoop_spec rs n buf
  | .failed :: rs, n, buf => ⟨[], by simp [readLoop, delivered]⟩
  | .eof :: rs, n, buf => ⟨[], by simp [readLoop, delivered]⟩
  | .data chunk :: rs, n, buf => by
    obtain ⟨got, hbuf, hdel, hsize⟩ :=
      readLoop_spec rs (n + chunk.bytes.length) (buf ++ chunk.bytes)
    refine ⟨chunk.bytes ++ got, ?_, ?_, ?_⟩
    · rw [readLoop, hbuf, List.append_assoc]
    · rw [readLoop, delivered, hdel, List.append_assoc]
    · rw [readLoop]
      rcases hsize with h | h
      · exact Or.inl h
      · right
        rw [h]
        simp only [List.length_append]
        omega

/-- The kernel takes a prefix of what it is handed, after what was sent before. -/
theorem writeLoop_sent : ∀ (ws : List WriteResult) (ptr sent : Bytes),
    ∃ taken, (writeLoop ws ptr sent).sent = sent ++ taken ∧ taken <+: ptr
  | [], ptr, sent => ⟨ptr, rfl, List.prefix_rfl⟩
  | w :: ws, ptr, sent => by
    unfold writeLoop
    split
    · exact ⟨[], by simp⟩
    · cases w with
      | eintr => exact writeLoop_sent ws ptr sent
      | eagain => exact ⟨[], by simp⟩
      | failed => exact ⟨[], by simp⟩
      | wrote k =>
        dsimp only
        split
        · exact ⟨[], by simp⟩
        · obtain ⟨taken, hs, rest, hr⟩ := writeLoop_sent ws (ptr.drop k) (sent ++ ptr.take k)
          refine ⟨ptr.take k ++ taken, by rw [hs, List.append_assoc], rest, ?_⟩
          rw [List.append_assoc, hr, List.take_append_drop]

/-- The same for the loop that tries a result of `0` again. -/
theorem writeLoopRaw_sent : ∀ (ws : List WriteResult) (ptr sent : Bytes),
    ∃ taken, (writeLoopRaw ws ptr sent).sent = sent ++ taken ∧ taken <+: ptr
  | [], ptr, sent => ⟨ptr, rfl, List.prefix_rfl⟩
  | w :: ws, ptr, sent => by
    unfold writeLoopRaw
    split
    · exact ⟨[], by simp⟩
    · cases w with
      | eintr => exact writeLoopRaw_sent ws ptr sent
      | eagain => exact ⟨[], by simp⟩
      | failed => exact ⟨[], by simp⟩
      | wrote k =>
        obtain ⟨taken, hs, rest, hr⟩ := writeLoopRaw_sent ws (ptr.drop k) (sent ++ ptr.take k)
        refine ⟨ptr.take k ++ taken, by rw [hs, List.append_assoc], rest, ?_⟩
        rw [List.append_assoc, hr, List.take_append_drop]

/-- **What is sent is cut off the buffer, unless the call fails.** -/
theorem writeToFd_spec (ws : List WriteResult) (buf : Bytes) :
    ((writeToFd ws buf).ret < 0 ∧ (writeToFd ws buf).outBuffer = buf) ∨
      (¬ (writeToFd ws buf).ret < 0 ∧
        (writeToFd ws buf).sent ++ (writeToFd ws buf).outBuffer = buf) := by
  obtain ⟨taken, hs, rest, hr⟩ := writeLoop_sent ws buf []
  rw [List.nil_append] at hs
  unfold writeToFd
  dsimp only
  split
  · exact Or.inl ⟨by simp, rfl⟩
  · refine Or.inr ⟨by simp, ?_⟩
    dsimp only
    rw [hs, ← hr, List.drop_left']
    rfl

theorem writeToFdRaw_sent (ws : List WriteResult) (buff : Bytes) :
    (writeToFdRaw ws buff).sent <+: buff := by
  obtain ⟨taken, hs, hp⟩ := writeLoopRaw_sent ws buff []
  show (writeLoopRaw ws buff []).sent <+: buff
  rw [hs]
  exact hp

end FlashWeb
