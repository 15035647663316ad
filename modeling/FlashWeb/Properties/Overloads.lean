import FlashWeb.Lib.Recursion
import FlashWeb.Properties.Output
import Mathlib.Data.Stream.Init

/-!
# The two overloads of `WriteToFd`

What the kernel answers is a stream here, since a loop that goes on at every answer asks for all of
them. Each overload is a `while` loop, that is, a function that ends in a call of itself. The loops
do the same at every result but `0`: the one over a `std::string` ends, the one over a `void*` tries
again. So they agree unless a result of `0` comes while bytes are left, and then only if `EAGAIN` is
what ends the second loop (`overloadsAgree_iff`); if nothing but `0` follows it never ends.
-/

namespace FlashWeb

open Lib.Recursion

/-! ## The loops -/

/-- A call of `WriteToFd` in its loop. -/
structure WriteCall where
  /-- the results of `write` still to come -/
  writes : Stream' WriteResult
  /-- the bytes that are left -/
  ptr : Bytes
  /-- the bytes the kernel took, in order -/
  sent : Bytes
  /-- the value returned -/
  ret : Option Int

def WriteCall.enter (writes : Stream' WriteResult) (buff : Bytes) : WriteCall :=
  ⟨writes, buff, [], none⟩

/-- The loop of `WriteToFd(int, std::string&)`. -/
def writeToFdBody (again : WriteCall → WriteCall) (s : WriteCall) : WriteCall :=
  if s.ptr = [] then { s with ret := some s.sent.length }
  else
    match s.writes.head with
    | .eintr => again { s with writes := s.writes.tail }
    | .eagain => { s with writes := s.writes.tail, ret := some s.sent.length }
    | .failed => { s with writes := s.writes.tail, ret := some (-1) }
    | .wrote k =>
      if k = 0 then { s with writes := s.writes.tail, ret := some s.sent.length }
      else
        again { s with
          writes := s.writes.tail, ptr := s.ptr.drop k, sent := s.sent ++ s.ptr.take k }

/-- The loop of `WriteToFd(int, void*, size_t)`. -/
def writeToFdRawBody (again : WriteCall → WriteCall) (s : WriteCall) : WriteCall :=
  if s.ptr = [] then { s with ret := some s.sent.length }
  else
    match s.writes.head with
    | .eintr => again { s with writes := s.writes.tail }
    | .eagain => { s with writes := s.writes.tail, ret := some s.sent.length }
    | .failed => { s with writes := s.writes.tail, ret := some (-1) }
    | .wrote k =>
      again { s with
        writes := s.writes.tail, ptr := s.ptr.drop k, sent := s.sent ++ s.ptr.take k }

/-! ## What the property is about -/

/-- There is no endless run of `EINTR`. -/
def Settles (writes : Stream' WriteResult) : Prop := ∀ i, ∃ j, i ≤ j ∧ writes.get j ≠ .eintr

/-- From `s` both loops return, with one value, and the kernel has taken the same bytes. -/
def WriteCall.Agrees (s : WriteCall) : Prop :=
  ∃ out out', (∃ n, Returns writeToFdBody s n out) ∧ (∃ n, Returns writeToFdRawBody s n out') ∧
    out.sent = out'.sent ∧ out.ret = out'.ret

/-- The results before the `i`th leave some of `left` bytes, and the `i`th is `0`. -/
structure ZeroBehind (writes : Stream' WriteResult) (left i : Nat) : Prop where
  zero : writes.get i = .wrote 0
  continues : ∀ w ∈ writes.take i, w.Continues
  short : accepted (writes.take i) < left

/-- The result makes the loop over a `void*` try again with what it had. -/
def WriteResult.Idle (w : WriteResult) : Prop := w = .eintr ∨ w = .wrote 0

/-- The first result that is neither `0` nor `EINTR` is `EAGAIN`. -/
def ComesToEagain (writes : Stream' WriteResult) : Prop :=
  ∃ j, (∀ w ∈ writes.take j, w.Idle) ∧ writes.get j = .eagain

/-- After every result of `0` with bytes left the kernel takes nothing more. -/
def ZerosHarmless (writes : Stream' WriteResult) (left : Nat) : Prop :=
  ∀ i, ZeroBehind writes left i → ComesToEagain (writes.drop (i + 1))

/-! ## One time through the loop -/

instance : Nontrivial WriteCall :=
  ⟨⟨.enter (.const .eagain) [], .enter (.const .eagain) [0], by simp [WriteCall.enter]⟩⟩

/-- What a result that takes bytes, or none, leaves. -/
def WriteCall.goOn (s : WriteCall) : WriteCall :=
  { s with
    writes := s.writes.tail, ptr := s.ptr.drop s.writes.head.size,
    sent := s.sent ++ s.ptr.take s.writes.head.size }

/-- What a result that ends the loop leaves. -/
def WriteCall.stop (s : WriteCall) : WriteCall :=
  { s with
    writes := s.writes.tail,
    ret := some (if s.writes.head = .failed then -1 else s.sent.length) }

theorem WriteResult.Continues.not_stops {w : WriteResult} (h : w.Continues) :
    ¬ (w = .eagain ∨ w = .failed) := by
  rcases h with rfl | ⟨k, rfl, -⟩ <;> simp

/-- The results at which the loop over a `std::string` ends. -/
theorem WriteResult.stops_of_not_continues {w : WriteResult} (h : ¬ w.Continues) :
    (w = .eagain ∨ w = .failed) ∨ w = .wrote 0 := by
  cases w with
  | eintr => exact absurd (Or.inl rfl) h
  | eagain => exact Or.inl (Or.inl rfl)
  | failed => exact Or.inl (Or.inr rfl)
  | wrote k =>
    by_cases hk : k = 0
    · rw [hk]
      exact Or.inr rfl
    · exact absurd (Or.inr ⟨k, rfl, hk⟩) h

theorem WriteResult.Idle.not_stops {w : WriteResult} (h : w.Idle) :
    ¬ (w = .eagain ∨ w = .failed) := by
  rcases h with rfl | rfl <;> simp

theorem WriteResult.Idle.size {w : WriteResult} (h : w.Idle) : w.size = 0 := by
  rcases h with rfl | rfl <;> rfl

section

variable {s : WriteCall}

theorem writeToFdBody_done (h : s.ptr = []) :
    Halts writeToFdBody s { s with ret := some s.sent.length } := by
  intro again
  rw [writeToFdBody, if_pos h]

theorem writeToFdRawBody_done (h : s.ptr = []) :
    Halts writeToFdRawBody s { s with ret := some s.sent.length } := by
  intro again
  rw [writeToFdRawBody, if_pos h]

theorem writeToFdBody_goOn (h : s.ptr ≠ []) (hw : s.writes.head.Continues) :
    Calls writeToFdBody s s.goOn := by
  intro again
  rw [writeToFdBody, if_neg h]
  rcases hw with hw | ⟨k, hw, hk⟩
  · simp [WriteCall.goOn, hw, WriteResult.size]
  · simp [WriteCall.goOn, hw, WriteResult.size, hk]

theorem writeToFdBody_stop (h : s.ptr ≠ []) (hw : ¬ s.writes.head.Continues) :
    Halts writeToFdBody s s.stop := by
  intro again
  rw [writeToFdBody, if_neg h]
  rcases WriteResult.stops_of_not_continues hw with (hres | hres) | hres <;>
    simp [WriteCall.stop, hres]

/-- Only `EAGAIN` and a failure end the loop over a `void*` while bytes are left. -/
theorem writeToFdRawBody_goOn (h : s.ptr ≠ [])
    (hw : ¬ (s.writes.head = .eagain ∨ s.writes.head = .failed)) :
    Calls writeToFdRawBody s s.goOn := by
  intro again
  rw [writeToFdRawBody, if_neg h]
  cases hres : s.writes.head with
  | eintr => simp [WriteCall.goOn, hres, WriteResult.size]
  | eagain => exact absurd (Or.inl hres) hw
  | failed => exact absurd (Or.inr hres) hw
  | wrote k => simp [WriteCall.goOn, hres, WriteResult.size]

theorem writeToFdRawBody_stop (h : s.ptr ≠ [])
    (hw : s.writes.head = .eagain ∨ s.writes.head = .failed) :
    Halts writeToFdRawBody s s.stop := by
  intro again
  rw [writeToFdRawBody, if_neg h]
  rcases hw with hw | hw <;> simp [WriteCall.stop, hw]

end

/-! ## The conditions, one result at a time -/

section

variable {writes : Stream' WriteResult} {left : Nat}

theorem zeroBehind_zero : ZeroBehind writes left 0 ↔ writes.head = .wrote 0 ∧ 0 < left := by
  constructor
  · rintro ⟨hzero, -, hshort⟩
    exact ⟨hzero, hshort⟩
  · rintro ⟨hzero, hshort⟩
    exact ⟨hzero, by simp, hshort⟩

theorem zeroBehind_succ {i : Nat} : ZeroBehind writes left (i + 1) ↔
    writes.head.Continues ∧ ZeroBehind writes.tail (left - writes.head.size) i := by
  have hsum : accepted (writes.take (i + 1)) =
      writes.head.size + accepted (writes.tail.take i) := rfl
  constructor
  · rintro ⟨hzero, hcont, hshort⟩
    exact ⟨hcont _ List.mem_cons_self, hzero, fun w hw => hcont w (List.mem_cons_of_mem _ hw),
      by omega⟩
  · rintro ⟨hhead, hzero, hcont, hshort⟩
    refine ⟨hzero, ?_, by omega⟩
    intro w hw
    rcases List.mem_cons.mp hw with rfl | hw
    · exact hhead
    · exact hcont w hw

theorem zerosHarmless_goOn (hw : writes.head.Continues) :
    ZerosHarmless writes left ↔ ZerosHarmless writes.tail (left - writes.head.size) := by
  constructor
  · intro h i hz
    exact h (i + 1) (zeroBehind_succ.mpr ⟨hw, hz⟩)
  · intro h i hz
    cases i with
    | zero =>
      have hzero := (zeroBehind_zero.mp hz).1
      rcases hw with hw | ⟨k, hw, hk⟩
      · exact absurd (hw.symm.trans hzero) (by simp)
      · exact absurd (WriteResult.wrote.inj (hw.symm.trans hzero)) hk
    | succ i => exact h i (zeroBehind_succ.mp hz).2

theorem zerosHarmless_stop (hw : ¬ writes.head.Continues) (hleft : 0 < left) :
    ZerosHarmless writes left ↔ (writes.head = .wrote 0 → ComesToEagain writes.tail) := by
  constructor
  · intro h hzero
    exact h 0 (zeroBehind_zero.mpr ⟨hzero, hleft⟩)
  · intro h i hz
    cases i with
    | zero => exact h (zeroBehind_zero.mp hz).1
    | succ i => exact absurd (zeroBehind_succ.mp hz).1 hw

theorem comesToEagain_iff : ComesToEagain writes ↔
    writes.head = .eagain ∨ writes.head.Idle ∧ ComesToEagain writes.tail := by
  constructor
  · rintro ⟨j, hidle, hj⟩
    cases j with
    | zero => exact Or.inl hj
    | succ j =>
      exact Or.inr ⟨hidle _ List.mem_cons_self, j,
        fun w hw => hidle w (List.mem_cons_of_mem _ hw), hj⟩
  · rintro (hhead | ⟨hhead, j, hidle, hj⟩)
    · exact ⟨0, by simp, hhead⟩
    · refine ⟨j + 1, ?_, hj⟩
      intro w hw
      rcases List.mem_cons.mp hw with rfl | hw
      · exact hhead
      · exact hidle w hw

theorem Settles.tail (h : Settles writes) : Settles writes.tail := by
  intro i
  obtain ⟨j, hle, hj⟩ := h (i + 1)
  obtain ⟨m, rfl⟩ : ∃ m, j = m + 1 := ⟨j - 1, by omega⟩
  exact ⟨m, by omega, hj⟩

end

/--
**The rule of the results.** The loop over a `std::string` goes on at a result that takes bytes, of
which there are finitely many left, and at `EINTR`, of which there is no endless run.
-/
theorem writes_induction {P : Stream' WriteResult → Bytes → Prop}
    (done : ∀ writes, P writes [])
    (stop : ∀ writes ptr, ptr ≠ [] → ¬ writes.head.Continues → P writes ptr)
    (goOn : ∀ writes ptr, ptr ≠ [] → writes.head.Continues →
      P writes.tail (ptr.drop writes.head.size) → P writes ptr)
    {writes : Stream' WriteResult} (h : Settles writes) (ptr : Bytes) : P writes ptr := by
  induction hn : ptr.length using Nat.strongRecOn generalizing writes ptr with
  | ind n ih =>
    have hstep : ∀ writes, Settles writes → (writes.head = .eintr → P writes.tail ptr) →
        P writes ptr := by
      intro writes h heintr
      by_cases hptr : ptr = []
      · exact hptr ▸ done writes
      · by_cases hw : writes.head.Continues
        · refine goOn writes ptr hptr hw ?_
          rcases hw with hw | ⟨k, hw, hk⟩
          · rw [hw]
            exact heintr hw
          · have hpos := List.length_pos_iff.mpr hptr
            refine ih _ ?_ h.tail _ rfl
            rw [hw, WriteResult.size, List.length_drop]
            omega
        · exact stop writes ptr hptr hw
    obtain ⟨j, -, hj⟩ := h 0
    -- the first result that is not `EINTR` is at most `j` results away
    induction j generalizing writes with
    | zero => exact hstep writes h fun hw => absurd hw hj
    | succ j ihj => exact hstep writes h fun _ => ihj h.tail hj

/-! ## Runs of the loops -/

/-- A run ends with no bytes left or with a result that does not continue, and goes on otherwise. -/
theorem writeToFdBody_cases (s : WriteCall) :
    (s.ptr = [] ∧ Halts writeToFdBody s { s with ret := some s.sent.length }) ∨
      (s.ptr ≠ [] ∧ ¬ s.writes.head.Continues ∧ Halts writeToFdBody s s.stop) ∨
      (s.ptr ≠ [] ∧ s.writes.head.Continues ∧ Calls writeToFdBody s s.goOn) := by
  by_cases hptr : s.ptr = []
  · exact Or.inl ⟨hptr, writeToFdBody_done hptr⟩
  · by_cases hw : s.writes.head.Continues
    · exact Or.inr (Or.inr ⟨hptr, hw, writeToFdBody_goOn hptr hw⟩)
    · exact Or.inr (Or.inl ⟨hptr, hw, writeToFdBody_stop hptr hw⟩)

/-- A run ends with no bytes left, with `EAGAIN` or with a failure, and goes on otherwise. -/
theorem writeToFdRawBody_cases (s : WriteCall) :
    (s.ptr = [] ∧ Halts writeToFdRawBody s { s with ret := some s.sent.length }) ∨
      (s.ptr ≠ [] ∧ (s.writes.head = .eagain ∨ s.writes.head = .failed) ∧
        Halts writeToFdRawBody s s.stop) ∨
      (s.ptr ≠ [] ∧ ¬ (s.writes.head = .eagain ∨ s.writes.head = .failed) ∧
        Calls writeToFdRawBody s s.goOn) := by
  by_cases hptr : s.ptr = []
  · exact Or.inl ⟨hptr, writeToFdRawBody_done hptr⟩
  · by_cases hw : s.writes.head = .eagain ∨ s.writes.head = .failed
    · exact Or.inr (Or.inl ⟨hptr, hw, writeToFdRawBody_stop hptr hw⟩)
    · exact Or.inr (Or.inr ⟨hptr, hw, writeToFdRawBody_goOn hptr hw⟩)

/-- What was sent stays sent. -/
theorem writeToFdRawBody_sent {s out : WriteCall} {n : Nat}
    (h : Returns writeToFdRawBody s n out) : s.sent <+: out.sent := by
  induction h with
  | @halt s out hout =>
    rcases writeToFdRawBody_cases s with ⟨-, hs⟩ | ⟨-, -, hs⟩ | ⟨-, -, hs⟩
    · obtain rfl := hout.unique hs
      exact List.prefix_rfl
    · obtain rfl := hout.unique hs
      exact List.prefix_rfl
    · exact (hout.not_calls hs).elim
  | @call s s' out n hcall _ ih =>
    rcases writeToFdRawBody_cases s with ⟨-, hs⟩ | ⟨-, -, hs⟩ | ⟨-, -, hs⟩
    · exact (hs.not_calls hcall).elim
    · exact (hs.not_calls hcall).elim
    · rw [hcall.unique hs] at ih
      exact (List.prefix_append _ _).trans ih

/-- An idle result changes nothing but what is still to come. -/
theorem WriteCall.goOn_idle {s : WriteCall} (hw : s.writes.head.Idle) :
    s.goOn = { s with writes := s.writes.tail } := by
  simp [WriteCall.goOn, hw.size]

/-- Any other result that lets the loop go on takes a byte. -/
theorem WriteCall.goOn_sent {s : WriteCall} (hptr : s.ptr ≠ [])
    (hw : ¬ (s.writes.head = .eagain ∨ s.writes.head = .failed)) (hidle : ¬ s.writes.head.Idle) :
    s.sent.length < s.goOn.sent.length := by
  have hpos := List.length_pos_iff.mpr hptr
  have hsize : 0 < s.writes.head.size := by
    cases hres : s.writes.head with
    | eintr => exact absurd (Or.inl hres) hidle
    | eagain => exact absurd (Or.inl hres) hw
    | failed => exact absurd (Or.inr hres) hw
    | wrote k =>
      refine Nat.pos_of_ne_zero fun hk => hidle (Or.inr ?_)
      rw [hres, show k = 0 from hk]
  rw [WriteCall.goOn, List.length_append, List.length_take]
  omega

/-- **The loop ends with nothing more sent exactly when it comes to `EAGAIN`.** -/
theorem writeToFdRawBody_quiet {s : WriteCall} (hptr : s.ptr ≠ []) :
    (∃ out, (∃ n, Returns writeToFdRawBody s n out) ∧ out.sent = s.sent ∧
      out.ret = some (s.sent.length : Int)) ↔ ComesToEagain s.writes := by
  constructor
  · rintro ⟨out, ⟨n, hret⟩, hsent, hval⟩
    induction hret with
    | @halt s out hout =>
      rcases writeToFdRawBody_cases s with ⟨hnil, -⟩ | ⟨-, hw, hs⟩ | ⟨-, -, hs⟩
      · exact absurd hnil hptr
      · obtain rfl := hout.unique hs
        rcases hw with hw | hw
        · exact comesToEagain_iff.mpr (Or.inl hw)
        · simp [WriteCall.stop, hw] at hval
      · exact (hout.not_calls hs).elim
    | @call s s' out n hcall hret ih =>
      rcases writeToFdRawBody_cases s with ⟨-, hs⟩ | ⟨-, -, hs⟩ | ⟨-, hw, hs⟩
      · exact (hs.not_calls hcall).elim
      · exact (hs.not_calls hcall).elim
      · obtain rfl := hcall.unique hs
        by_cases hidle : s.writes.head.Idle
        · rw [WriteCall.goOn_idle hidle] at ih
          exact comesToEagain_iff.mpr (Or.inr ⟨hidle, ih hptr hsent hval⟩)
        · have hmore := WriteCall.goOn_sent hptr hw hidle
          have hlen := (writeToFdRawBody_sent hret).length_le
          rw [hsent] at hlen
          omega
  · rintro ⟨j, hidle, hj⟩
    induction j generalizing s with
    | zero =>
      refine ⟨s.stop, ⟨1, .halt (writeToFdRawBody_stop hptr (Or.inl hj))⟩, rfl, ?_⟩
      simp [WriteCall.stop, hj]
    | succ j ih =>
      have hhead : s.writes.head.Idle := hidle _ List.mem_cons_self
      have hcall := writeToFdRawBody_goOn hptr hhead.not_stops
      rw [WriteCall.goOn_idle hhead] at hcall
      obtain ⟨out, ⟨n, hret⟩, hout⟩ := @ih { s with writes := s.writes.tail } hptr
        (fun w hw => hidle w (List.mem_cons_of_mem _ hw)) hj
      exact ⟨out, ⟨n + 1, .call hcall hret⟩, hout⟩

/-- **A kernel that takes nothing and does not say why keeps the loop busy for ever.** -/
theorem writeToFdRawBody_spins {s out : WriteCall} {n : Nat}
    (h : Returns writeToFdRawBody s n out) (hptr : s.ptr ≠ [])
    (hidle : ∀ i, (s.writes.get i).Idle) : False := by
  induction h with
  | @halt s out hout =>
    exact hout.not_calls (writeToFdRawBody_goOn hptr (hidle 0).not_stops)
  | @call s s' out n hcall hret ih =>
    have hs := writeToFdRawBody_goOn hptr (hidle 0).not_stops
    obtain rfl := hcall.unique hs
    rw [WriteCall.goOn_idle (hidle 0)] at ih
    exact ih hptr fun i => hidle (i + 1)

/-! ## Both loops -/

theorem WriteCall.agrees_done {s : WriteCall} (hptr : s.ptr = []) : s.Agrees :=
  ⟨_, _, ⟨1, .halt (writeToFdBody_done hptr)⟩, ⟨1, .halt (writeToFdRawBody_done hptr)⟩, rfl, rfl⟩

/-- A result at which both loops go on settles nothing. -/
theorem WriteCall.agrees_goOn {s : WriteCall} (hptr : s.ptr ≠ []) (hw : s.writes.head.Continues) :
    s.Agrees ↔ s.goOn.Agrees := by
  have hcall := writeToFdBody_goOn hptr hw
  have hcallRaw := writeToFdRawBody_goOn hptr hw.not_stops
  unfold WriteCall.Agrees
  simp only [hcall.returns_iff, hcallRaw.returns_iff]

/-- Where the loop over a `std::string` ends the other one ends too, or the result was `0`. -/
theorem WriteCall.agrees_stop {s : WriteCall} (hptr : s.ptr ≠ [])
    (hw : ¬ s.writes.head.Continues) :
    s.Agrees ↔ (s.writes.head = .wrote 0 → ComesToEagain s.writes.tail) := by
  have hhalt := writeToFdBody_stop hptr hw
  unfold WriteCall.Agrees
  simp only [hhalt.returns_iff]
  by_cases hends : s.writes.head = .eagain ∨ s.writes.head = .failed
  · have hboth : ∃ out out', out = s.stop ∧ (∃ n, Returns writeToFdRawBody s n out') ∧
        out.sent = out'.sent ∧ out.ret = out'.ret :=
      ⟨_, _, rfl, ⟨1, .halt (writeToFdRawBody_stop hptr hends)⟩, rfl, rfl⟩
    refine iff_of_true hboth fun hzero => ?_
    rw [hzero] at hends
    simp at hends
  · have hzero : s.writes.head = .wrote 0 :=
      (WriteResult.stops_of_not_continues hw).resolve_left hends
    have hidle : s.writes.head.Idle := Or.inr hzero
    have hcall := writeToFdRawBody_goOn hptr hends
    have hstop : s.stop.ret = some (s.sent.length : Int) := by simp [WriteCall.stop, hzero]
    have hquiet := @writeToFdRawBody_quiet { s with writes := s.writes.tail } hptr
    rw [WriteCall.goOn_idle hidle] at hcall
    simp only [hcall.returns_iff, hzero, true_implies, ← hquiet]
    constructor
    · rintro ⟨_, out, rfl, hret, hsent, hval⟩
      exact ⟨out, hret, hsent.symm, hval.symm.trans hstop⟩
    · rintro ⟨out, hret, hsent, hval⟩
      exact ⟨_, out, rfl, hret, hsent.symm, hstop.trans hval.symm⟩

/-- **From any state of the loop, the overloads agree exactly when zeros do no harm.** -/
theorem WriteCall.agrees_iff {writes : Stream' WriteResult} (h : Settles writes) (ptr : Bytes) :
    ∀ sent ret, (WriteCall.mk writes ptr sent ret).Agrees ↔ ZerosHarmless writes ptr.length := by
  refine writes_induction (P := fun writes ptr => ∀ sent ret,
    (WriteCall.mk writes ptr sent ret).Agrees ↔ ZerosHarmless writes ptr.length)
    ?done ?stop ?goOn h ptr
  case done =>
    intro writes sent ret
    exact iff_of_true (WriteCall.agrees_done rfl) fun i hz => absurd hz.short (by simp)
  case stop =>
    intro writes ptr hptr hw sent ret
    rw [WriteCall.agrees_stop hptr hw, zerosHarmless_stop hw (List.length_pos_iff.mpr hptr)]
  case goOn =>
    intro writes ptr hptr hw ih sent ret
    rw [WriteCall.agrees_goOn hptr hw, zerosHarmless_goOn hw, ← List.length_drop]
    exact ih _ _

/-- The overload for a `std::string` returns whatever the kernel answers. -/
theorem writeToFdBody_returns {writes : Stream' WriteResult} (h : Settles writes) (ptr : Bytes) :
    ∀ sent ret, ∃ n out, Returns writeToFdBody (.mk writes ptr sent ret) n out := by
  refine writes_induction (P := fun writes ptr => ∀ sent ret,
    ∃ n out, Returns writeToFdBody (.mk writes ptr sent ret) n out) ?done ?stop ?goOn h ptr
  case done =>
    intro writes sent ret
    exact ⟨1, _, .halt (writeToFdBody_done rfl)⟩
  case stop =>
    intro writes ptr hptr hw sent ret
    exact ⟨1, _, .halt (writeToFdBody_stop hptr hw)⟩
  case goOn =>
    intro writes ptr hptr hw ih sent ret
    obtain ⟨n, out, hret⟩ := ih (sent ++ ptr.take writes.head.size) ret
    exact ⟨n + 1, out, .call (writeToFdBody_goOn hptr hw) hret⟩

/-! ## The answers that are asked for

A call that returns asks for finitely many results, and on these it is `writeToFd` or
`writeToFdRaw`.
-/

/-- `out` is what a call leaves whose loop ended with `l`. -/
def WriteLoop.Leaves (l : WriteLoop) (out : WriteCall) : Prop :=
  out.sent = l.sent ∧ out.ret = some (if l.failed then -1 else (l.sent.length : Int))

theorem writeToFdBody_leaves {s out : WriteCall} {n : Nat} (h : Returns writeToFdBody s n out)
    {m : Nat} (hm : n ≤ m) : (writeLoop (s.writes.take m) s.ptr s.sent).Leaves out := by
  induction h generalizing m with
  | @halt s out hout =>
    obtain ⟨k, rfl⟩ : ∃ k, m = k + 1 := ⟨m - 1, by omega⟩
    rw [Stream'.take_succ, writeLoop.eq_def]
    dsimp only
    rcases writeToFdBody_cases s with ⟨hptr, hs⟩ | ⟨hptr, hw, hs⟩ | ⟨-, -, hs⟩
    · obtain rfl := hout.unique hs
      rw [if_pos hptr]
      exact ⟨rfl, rfl⟩
    · obtain rfl := hout.unique hs
      rw [if_neg hptr]
      rcases WriteResult.stops_of_not_continues hw with (hw | hw) | hw <;> rw [hw] <;>
        exact ⟨rfl, by simp [WriteCall.stop, hw]⟩
    · exact (hout.not_calls hs).elim
  | @call s s' out n hcall _ ih =>
    obtain ⟨k, rfl⟩ : ∃ k, m = k + 1 := ⟨m - 1, by omega⟩
    have ih := ih (show n ≤ k by omega)
    rw [Stream'.take_succ, writeLoop.eq_def]
    dsimp only
    rcases writeToFdBody_cases s with ⟨-, hs⟩ | ⟨-, -, hs⟩ | ⟨hptr, hw, hs⟩
    · exact (hs.not_calls hcall).elim
    · exact (hs.not_calls hcall).elim
    · obtain rfl := hcall.unique hs
      rw [if_neg hptr]
      rcases hw with hw | ⟨j, hw, hj⟩
      · simpa [WriteCall.goOn, hw, WriteResult.size] using ih
      · simpa [WriteCall.goOn, hw, WriteResult.size, hj] using ih

theorem writeToFdRawBody_leaves {s out : WriteCall} {n : Nat}
    (h : Returns writeToFdRawBody s n out) {m : Nat} (hm : n ≤ m) :
    (writeLoopRaw (s.writes.take m) s.ptr s.sent).Leaves out := by
  induction h generalizing m with
  | @halt s out hout =>
    obtain ⟨k, rfl⟩ : ∃ k, m = k + 1 := ⟨m - 1, by omega⟩
    rw [Stream'.take_succ, writeLoopRaw.eq_def]
    dsimp only
    rcases writeToFdRawBody_cases s with ⟨hptr, hs⟩ | ⟨hptr, hw, hs⟩ | ⟨-, -, hs⟩
    · obtain rfl := hout.unique hs
      rw [if_pos hptr]
      exact ⟨rfl, rfl⟩
    · obtain rfl := hout.unique hs
      rw [if_neg hptr]
      rcases hw with hw | hw
      · rw [hw]
        exact ⟨rfl, by simp [WriteCall.stop, hw]⟩
      · rw [hw]
        exact ⟨rfl, by simp [WriteCall.stop, hw]⟩
    · exact (hout.not_calls hs).elim
  | @call s s' out n hcall _ ih =>
    obtain ⟨k, rfl⟩ : ∃ k, m = k + 1 := ⟨m - 1, by omega⟩
    have ih := ih (show n ≤ k by omega)
    rw [Stream'.take_succ, writeLoopRaw.eq_def]
    dsimp only
    rcases writeToFdRawBody_cases s with ⟨-, hs⟩ | ⟨-, -, hs⟩ | ⟨hptr, hw, hs⟩
    · exact (hs.not_calls hcall).elim
    · exact (hs.not_calls hcall).elim
    · obtain rfl := hcall.unique hs
      rw [if_neg hptr]
      cases hres : s.writes.head with
      | eintr => simpa [WriteCall.goOn, hres, WriteResult.size] using ih
      | eagain => exact absurd (Or.inl hres) hw
      | failed => exact absurd (Or.inr hres) hw
      | wrote j => simpa [WriteCall.goOn, hres, WriteResult.size] using ih

theorem WriteLoop.Leaves.writeToFd {ws : List WriteResult} {buff : Bytes} {out : WriteCall}
    (h : (writeLoop ws buff []).Leaves out) :
    out.ret = some (writeToFd ws buff).ret ∧ out.sent = (writeToFd ws buff).sent := by
  obtain ⟨hsent, hret⟩ := h
  rw [hret, hsent]
  cases hf : (writeLoop ws buff []).failed <;> simp [FlashWeb.writeToFd, hf]

theorem WriteLoop.Leaves.writeToFdRaw {ws : List WriteResult} {buff : Bytes} {out : WriteCall}
    (h : (writeLoopRaw ws buff []).Leaves out) :
    out.ret = some (writeToFdRaw ws buff).ret ∧ out.sent = (writeToFdRaw ws buff).sent :=
  ⟨h.2, h.1⟩

/-- **Calls that agree agree on every list that holds the answers they ask for.** -/
theorem WriteCall.Agrees.writeToFd {writes : Stream' WriteResult} {buff : Bytes}
    (h : (WriteCall.enter writes buff).Agrees) :
    ∃ n, ∀ m, n ≤ m →
      (FlashWeb.writeToFd (writes.take m) buff).ret = (writeToFdRaw (writes.take m) buff).ret ∧
      (FlashWeb.writeToFd (writes.take m) buff).sent =
        (writeToFdRaw (writes.take m) buff).sent := by
  obtain ⟨out, out', ⟨n, hret⟩, ⟨n', hret'⟩, hsent, hval⟩ := h
  refine ⟨n + n', fun m hm => ?_⟩
  have hout := (writeToFdBody_leaves hret (show n ≤ m by omega)).writeToFd
  have hout' := (writeToFdRawBody_leaves hret' (show n' ≤ m by omega)).writeToFdRaw
  rw [hout.1, hout'.1] at hval
  rw [hout.2, hout'.2] at hsent
  exact ⟨Option.some.inj hval, hsent⟩

/-! ## The overloads -/

/--
**When the overloads agree.** They return the same value and hand the same bytes to the kernel
exactly when every result of `0` that comes while bytes are left is followed, behind nothing but `0`
and `EINTR`, by `EAGAIN`.
-/
theorem writeToFd_overloads (writes : Stream' WriteResult) (h : Settles writes) (buff : Bytes) :
    (WriteCall.enter writes buff).Agrees ↔ ZerosHarmless writes buff.length :=
  WriteCall.agrees_iff h buff [] none

/-- The bytes are taken one at a time. -/
theorem writeToFd_overloads_ones :
    (WriteCall.enter (.const (.wrote 1)) (text "ab")).Agrees := by
  have hsettles : Settles (.const (.wrote 1)) := fun i => ⟨i, le_rfl, by simp⟩
  refine (writeToFd_overloads _ hsettles _).mpr fun i hz => ?_
  simpa using hz.zero

/-- A kernel that takes nothing, again and again: the loop over a `void*` does not end. -/
theorem writeToFd_overloads_zeros :
    Settles (.const (.wrote 0)) ∧ ¬ (WriteCall.enter (.const (.wrote 0)) (text "a")).Agrees := by
  refine ⟨fun i => ⟨i, le_rfl, by simp⟩, ?_⟩
  rintro ⟨-, out, -, ⟨n, hret⟩, -⟩
  exact writeToFdRawBody_spins hret (List.cons_ne_nil _ _) fun _ => Or.inr rfl

end FlashWeb
