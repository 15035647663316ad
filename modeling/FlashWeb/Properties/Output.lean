import FlashWeb.Http.Handlers

/-!
# Bytes that are sent twice

`WriteToFd` cuts what the kernel took off the buffer when its loop is over, and returns before that
when `write` fails. So a call that fails behind bytes that were taken leaves these bytes in the
buffer (`BreaksOff`), and the next call sends them again; every other call keeps the bytes taken and
the bytes left together equal to what there was. `output_conserved` says so of one call, and of any
sequence of `HandleWrite` calls with bytes appended in between.
-/

namespace FlashWeb

/-! ## One call of `WriteToFd` -/

/-- The bytes a result takes when enough are left. -/
def WriteResult.size : WriteResult → Nat
  | .wrote k => k
  | _ => 0

/-- The loop goes on after the result. -/
def WriteResult.Continues (w : WriteResult) : Prop := w = .eintr ∨ ∃ k, w = .wrote k ∧ k ≠ 0

/-- The bytes that results take together. -/
def accepted (ws : List WriteResult) : Nat := (ws.map WriteResult.size).sum

/-- The results are `pre`, after which some of `left` bytes are left, and then a failure. -/
structure FailsBehind (pre ws : List WriteResult) (left : Nat) : Prop where
  front : pre ++ [.failed] <+: ws
  continues : ∀ w ∈ pre, w.Continues
  short : accepted pre < left

/-- `write` fails when some of the bytes have been taken and some have not. -/
def BreaksOff (ws : List WriteResult) (buf : Bytes) : Prop :=
  ∃ pre, FailsBehind pre ws buf.length ∧ 0 < accepted pre

theorem failsBehind_nil {ws : List WriteResult} {left : Nat} :
    FailsBehind [] ws left ↔ ws.head? = some .failed ∧ 0 < left := by
  constructor
  · rintro ⟨⟨t, rfl⟩, -, hshort⟩
    exact ⟨rfl, hshort⟩
  · rintro ⟨hhead, hshort⟩
    obtain ⟨t, rfl⟩ := List.head?_eq_some_iff.mp hhead
    exact ⟨⟨t, rfl⟩, by simp, hshort⟩

theorem failsBehind_cons {w v : WriteResult} {pre ws : List WriteResult} {left : Nat} :
    FailsBehind (w :: pre) (v :: ws) left ↔
      w = v ∧ w.Continues ∧ FailsBehind pre ws (left - w.size) := by
  have hsum : accepted (w :: pre) = w.size + accepted pre := rfl
  constructor
  · rintro ⟨hfront, hcont, hshort⟩
    rw [List.cons_append, List.cons_prefix_cons] at hfront
    refine ⟨hfront.1, hcont w List.mem_cons_self, hfront.2,
      fun u hu => hcont u (List.mem_cons_of_mem _ hu), ?_⟩
    omega
  · rintro ⟨rfl, hw, hfront, hcont, hshort⟩
    refine ⟨?_, ?_, by omega⟩
    · rw [List.cons_append, List.cons_prefix_cons]
      exact ⟨rfl, hfront⟩
    · intro u hu
      rcases List.mem_cons.mp hu with rfl | hu
      · exact hw
      · exact hcont u hu

/-- Before a result that is no failure there is none to fail behind. -/
theorem FailsBehind.of_cons {w : WriteResult} {pre ws : List WriteResult} {left : Nat}
    (h : FailsBehind pre (w :: ws) left) (hw : w ≠ .failed) :
    ∃ pre', pre = w :: pre' ∧ w.Continues ∧ FailsBehind pre' ws (left - w.size) := by
  cases pre with
  | nil => exact absurd (Option.some.inj (failsBehind_nil.mp h).1) hw
  | cons v pre =>
    obtain ⟨rfl, hcont, hrest⟩ := failsBehind_cons.mp h
    exact ⟨pre, rfl, hcont, hrest⟩

/-- What there is to say of a loop over `ws` that ended with `l`. -/
structure FailureSpec (ws : List WriteResult) (ptr sent : Bytes) (l : WriteLoop) : Prop where
  failed : l.failed = true ↔ ∃ pre, FailsBehind pre ws ptr.length
  sent : ∀ pre, FailsBehind pre ws ptr.length → l.sent = sent ++ ptr.take (accepted pre)

/-- A loop that ends without a failure. -/
theorem FailureSpec.ended {ws : List WriteResult} {ptr sent : Bytes} {l : WriteLoop}
    (hl : l.failed = false) (hnone : ∀ pre, ¬ FailsBehind pre ws ptr.length) :
    FailureSpec ws ptr sent l where
  failed := by
    rw [hl]
    exact ⟨fun h => Bool.noConfusion h, fun ⟨pre, h⟩ => (hnone pre h).elim⟩
  sent pre h := (hnone pre h).elim

/-- A loop that goes on with what the result `w` leaves. -/
theorem FailureSpec.goesOn {w : WriteResult} {ws : List WriteResult} {ptr sent : Bytes}
    {l : WriteLoop} (hw : w.Continues)
    (h : FailureSpec ws (ptr.drop w.size) (sent ++ ptr.take w.size) l) :
    FailureSpec (w :: ws) ptr sent l := by
  have hne : w ≠ .failed := by
    rintro rfl
    rcases hw with h | ⟨k, h, -⟩ <;> simp at h
  constructor
  · rw [h.failed, List.length_drop]
    constructor
    · rintro ⟨pre, hpre⟩
      exact ⟨w :: pre, failsBehind_cons.mpr ⟨rfl, hw, hpre⟩⟩
    · rintro ⟨pre, hpre⟩
      obtain ⟨pre', -, -, hrest⟩ := hpre.of_cons hne
      exact ⟨pre', hrest⟩
  · intro pre hpre
    obtain ⟨pre', rfl, -, hrest⟩ := hpre.of_cons hne
    rw [← List.length_drop] at hrest
    have hsum : accepted (w :: pre') = w.size + accepted pre' := rfl
    rw [h.sent pre' hrest, hsum, List.append_assoc, List.take_add]

/-- **When the loop returns `-1`, and what the kernel has taken by then.** -/
theorem writeLoop_failure : ∀ (ws : List WriteResult) (ptr sent : Bytes),
    FailureSpec ws ptr sent (writeLoop ws ptr sent)
  | [], ptr, sent => .ended rfl fun pre h => absurd h.front.length_le (by simp)
  | w :: ws, ptr, sent => by
    unfold writeLoop
    split
    · next hptr =>
      refine .ended rfl fun pre h => ?_
      have hshort := h.short
      simp [hptr] at hshort
    · next hptr =>
      cases w with
      | eintr => exact .goesOn (Or.inl rfl) (by
          simpa [WriteResult.size] using writeLoop_failure ws ptr sent)
      | eagain =>
        refine .ended rfl fun pre h => ?_
        obtain ⟨-, -, hcont, -⟩ := h.of_cons (by simp)
        rcases hcont with hc | ⟨k, hc, -⟩ <;> simp at hc
      | failed =>
        -- nothing was taken since the loop was entered
        have hhere : FailsBehind [] (.failed :: ws) ptr.length :=
          failsBehind_nil.mpr ⟨rfl, List.length_pos_iff.mpr hptr⟩
        refine ⟨iff_of_true rfl ⟨[], hhere⟩, ?_⟩
        intro pre h
        cases pre with
        | nil => simp [accepted]
        | cons v pre =>
          obtain ⟨rfl, hcont, -⟩ := failsBehind_cons.mp h
          rcases hcont with hc | ⟨k, hc, -⟩ <;> simp at hc
      | wrote k =>
        dsimp only
        split
        · next hk =>
          refine .ended rfl fun pre h => ?_
          obtain ⟨-, -, hcont, -⟩ := h.of_cons (by simp)
          rcases hcont with hc | ⟨j, hc, hj⟩
          · simp at hc
          · exact hj ((WriteResult.wrote.inj hc).symm.trans hk)
        · next hk => exact .goesOn (Or.inr ⟨k, rfl, hk⟩) (writeLoop_failure ws _ _)

/-- A call that fails leaves the buffer as it was. -/
theorem writeToFd_failed {ws : List WriteResult} {buf : Bytes} {pre : List WriteResult}
    (h : FailsBehind pre ws buf.length) :
    (writeToFd ws buf).outBuffer = buf ∧ (writeToFd ws buf).sent = buf.take (accepted pre) := by
  have hspec := writeLoop_failure ws buf []
  have hf : (writeLoop ws buf []).failed = true := hspec.failed.mpr ⟨pre, h⟩
  have hsent := hspec.sent pre h
  rw [List.nil_append] at hsent
  unfold writeToFd
  dsimp only
  rw [if_pos hf]
  exact ⟨rfl, hsent⟩

/-- A call that breaks off leaves bytes in the buffer that it has sent. -/
theorem BreaksOff.lt_length {ws : List WriteResult} {buf : Bytes} (h : BreaksOff ws buf) :
    buf.length < ((writeToFd ws buf).sent ++ (writeToFd ws buf).outBuffer).length := by
  obtain ⟨pre, hpre, hpos⟩ := h
  obtain ⟨hout, hsent⟩ := writeToFd_failed hpre
  have hshort := hpre.short
  rw [hout, hsent, List.length_append, List.length_take]
  omega

/-- **Every other call keeps all bytes.** -/
theorem writeToFd_keeps {ws : List WriteResult} {buf : Bytes} (h : ¬ BreaksOff ws buf) :
    (writeToFd ws buf).sent ++ (writeToFd ws buf).outBuffer = buf := by
  rcases writeToFd_spec ws buf with ⟨hret, -⟩ | ⟨-, hall⟩
  · have hf : (writeLoop ws buf []).failed = true := by
      rw [← Bool.not_eq_false]
      intro hf
      simp only [writeToFd, hf, Bool.false_eq_true, if_false] at hret
      omega
    obtain ⟨pre, hpre⟩ := (writeLoop_failure ws buf []).failed.mp hf
    obtain ⟨hout, hsent⟩ := writeToFd_failed hpre
    have hzero : accepted pre = 0 := by
      by_contra hne
      exact h ⟨pre, hpre, Nat.pos_of_ne_zero hne⟩
    rw [hout, hsent, hzero]
    rfl
  · exact hall

/-- A call that breaks off meets a failure. -/
theorem BreaksOff.failed_mem {ws : List WriteResult} {buf : Bytes} (h : BreaksOff ws buf) :
    WriteResult.failed ∈ ws := by
  obtain ⟨pre, hpre, -⟩ := h
  exact hpre.front.subset (List.mem_append_right _ List.mem_cons_self)

/-! ## Any number of `HandleWrite` calls -/

/-- The bytes on the wire and those still to be written. -/
def Conn.output (c : Conn) : Bytes := bytesSent c.trace ++ c.http.writeBuffer

theorem flush_output (c : Conn) : (flush c).output = bytesSent c.trace ++
    ((writeToFd c.writes c.http.writeBuffer).sent ++
      (writeToFd c.writes c.http.writeBuffer).outBuffer) := by
  simp [Conn.output, flush, Effect.sent]

theorem flush_keeps {c : Conn} (h : ¬ BreaksOff c.writes c.http.writeBuffer) :
    (flush c).output = c.output := by
  rw [flush_output, writeToFd_keeps h]
  rfl

theorem flush_grows {c : Conn} (h : BreaksOff c.writes c.http.writeBuffer) :
    c.output.length < (flush c).output.length := by
  have hlt := h.lt_length
  rw [flush_output, List.length_append, Conn.output, List.length_append]
  omega

theorem flush_length_le (c : Conn) : c.output.length ≤ (flush c).output.length := by
  by_cases h : BreaksOff c.writes c.http.writeBuffer
  · exact (flush_grows h).le
  · rw [flush_keeps h]

/-- Neither of the two calls of `HandleWrite` breaks off, if it makes them. -/
def Conn.WritesOn (c : Conn) : Prop :=
  c.http.hasError = false ∧ c.http.connectionState ≠ .disconnected →
    ¬ BreaksOff c.writes c.http.writeBuffer ∧
      ¬ BreaksOff (flush c).writes (flush c).http.writeBuffer

theorem listen_output (c : Conn) (ev : EventMask) : (c.listen ev).output = c.output := rfl

/-- `HandleWrite` writes twice, or not at all. -/
theorem handleWrite_output (c : Conn) :
    (handleWrite c).output =
      if c.http.hasError = false ∧ c.http.connectionState ≠ .disconnected then
        (flush (flush c)).output
      else c.output := by
  unfold handleWrite
  split
  · dsimp only
    split
    · rw [listen_output]
    · rfl
  · rfl

theorem handleWrite_keeps {c : Conn} (h : c.WritesOn) : (handleWrite c).output = c.output := by
  rw [handleWrite_output]
  split
  · next hopen =>
    obtain ⟨h1, h2⟩ := h hopen
    rw [flush_keeps h2, flush_keeps h1]
  · rfl

theorem handleWrite_grows {c : Conn} (h : ¬ c.WritesOn) :
    c.output.length < (handleWrite c).output.length := by
  unfold Conn.WritesOn at h
  rw [Classical.not_imp, not_and_or, not_not, not_not] at h
  obtain ⟨hopen, hbreaks⟩ := h
  rw [handleWrite_output, if_pos hopen]
  rcases hbreaks with h1 | h2
  · exact lt_of_lt_of_le (flush_grows h1) (flush_length_le _)
  · exact lt_of_le_of_lt (flush_length_le _) (flush_grows h2)

/-- A connection and everything that was appended to its `write_buffer_`. -/
structure Output where
  conn : Conn
  appended : Bytes

/-- What is done with the `write_buffer_`. -/
inductive OutputStep where
  | append (s : Bytes)
  /-- `HandleWrite`, and what `write` answers -/
  | handleWrite (writes : List WriteResult)

def Output.step (o : Output) : OutputStep → Output
  | .append s => ⟨o.conn.append s, o.appended ++ s⟩
  | .handleWrite writes => ⟨handleWrite { o.conn with writes := writes }, o.appended⟩

/-- A connection to which nothing was appended yet. -/
def Output.start (h : Http) : Output where
  conn := ⟨{ h with writeBuffer := [] }, [], [], []⟩
  appended := []

/-- The bytes the kernel took, and those still in the buffer, are the bytes appended. -/
def Output.Balanced (o : Output) : Prop := o.conn.output = o.appended

/-- More bytes were sent, or are still to be sent, than were appended. -/
def Output.Repeats (o : Output) : Prop := o.appended.length < o.conn.output.length

/-- No call of `write` breaks off in the step. -/
def Output.WritesOn (o : Output) : OutputStep → Prop
  | .append _ => True
  | .handleWrite writes => Conn.WritesOn { o.conn with writes := writes }

/-- The same for every step of a run. -/
def Output.AllWriteOn : Output → List OutputStep → Prop
  | _, [] => True
  | o, a :: as => o.WritesOn a ∧ (o.step a).AllWriteOn as

theorem append_output (c : Conn) (s : Bytes) : (c.append s).output = c.output ++ s := by
  simp [Conn.output, Conn.append]

theorem Output.Balanced.step {o : Output} (h : o.Balanced) :
    ∀ {a : OutputStep}, o.WritesOn a → (o.step a).Balanced
  | .append s, _ => by
    show (o.conn.append s).output = o.appended ++ s
    rw [append_output, h]
  | .handleWrite writes, hw => by
    show (FlashWeb.handleWrite { o.conn with writes := writes }).output = o.appended
    rw [handleWrite_keeps hw]
    exact h

/-- A step in which a call breaks off sends bytes again. -/
theorem Output.Balanced.repeats {o : Output} (h : o.Balanced) :
    ∀ {a : OutputStep}, ¬ o.WritesOn a → (o.step a).Repeats
  | .append _, hw => absurd trivial hw
  | .handleWrite writes, hw => by
    have hgrows := handleWrite_grows hw
    show o.appended.length < _
    rw [← h]
    exact hgrows

/-- Bytes sent again are never taken back. -/
theorem Output.Repeats.step {o : Output} (h : o.Repeats) : ∀ a : OutputStep, (o.step a).Repeats
  | .append s => by
    show (o.appended ++ s).length < (o.conn.append s).output.length
    rw [append_output, List.length_append, List.length_append]
    exact Nat.add_lt_add_right h _
  | .handleWrite writes => by
    show o.appended.length < (FlashWeb.handleWrite { o.conn with writes := writes }).output.length
    by_cases hw : Conn.WritesOn { o.conn with writes := writes }
    · rw [handleWrite_keeps hw]
      exact h
    · exact lt_trans h (handleWrite_grows hw)

theorem Output.Repeats.run {o : Output} (h : o.Repeats) (as : List OutputStep) :
    (as.foldl Output.step o).Repeats := by
  induction as generalizing o with
  | nil => exact h
  | cons a as ih => exact ih (h.step a)

theorem Output.Balanced.run_iff {o : Output} (h : o.Balanced) (as : List OutputStep) :
    (as.foldl Output.step o).Balanced ↔ o.AllWriteOn as := by
  induction as generalizing o with
  | nil => exact iff_of_true h trivial
  | cons a as ih =>
    by_cases hw : o.WritesOn a
    · rw [List.foldl_cons, ih (h.step hw)]
      exact ⟨fun hrest => ⟨hw, hrest⟩, fun hall => hall.2⟩
    · have hrep := (h.repeats hw).run as
      refine iff_of_false (fun hbal => ?_) (fun hall => hw hall.1)
      have hlt : (as.foldl Output.step (o.step a)).appended.length <
          (as.foldl Output.step (o.step a)).conn.output.length := hrep
      rw [show (as.foldl Output.step (o.step a)).conn.output = _ from hbal] at hlt
      exact Nat.lt_irrefl _ hlt

/--
**When no byte is lost or sent twice.** One call of `WriteToFd` keeps the bytes taken and the bytes
left equal to what there was if and only if `write` does not fail behind bytes that were taken; and
over a run of `HandleWrite` calls, with bytes appended in between, the bytes taken and left are the
bytes appended if and only if no call of the run was of this kind.
-/
theorem output_conserved (ws : List WriteResult) (buf : Bytes) (h : Http) (as : List OutputStep) :
    ((writeToFd ws buf).sent ++ (writeToFd ws buf).outBuffer = buf ↔ ¬ BreaksOff ws buf) ∧
      ((as.foldl Output.step (Output.start h)).Balanced ↔ (Output.start h).AllWriteOn as) := by
  constructor
  · constructor
    · intro hkeeps hbreaks
      have hlt := hbreaks.lt_length
      rw [hkeeps] at hlt
      exact Nat.lt_irrefl _ hlt
    · exact writeToFd_keeps
  · have hstart : (Output.start h).Balanced := rfl
    exact hstart.run_iff as

/-- The peer takes one byte and is gone. -/
theorem output_repeated :
    (writeToFd [.wrote 1, .failed] (text "ab")).sent ++
        (writeToFd [.wrote 1, .failed] (text "ab")).outBuffer = text "aab" ∧
      ¬ ((writeToFd [.wrote 1, .failed] (text "ab")).sent ++
        (writeToFd [.wrote 1, .failed] (text "ab")).outBuffer = text "ab") := by
  decide

end FlashWeb
