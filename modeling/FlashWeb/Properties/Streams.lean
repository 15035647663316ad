import FlashWeb.Properties.Clients

/-!
# Streams in pieces

The bytes of a connection arrive in pieces, one with each event, and what it makes of them is
decided by all of them together, as long as they are cut in request lines: a part of a request line
waits in the buffer unchanged, while a part of a header does not. Between requests the cut must not
be at the end of one either, for the byte that is lost there comes with the next piece or not at
all. Under that condition a connection of the server is a function from streams to streams, and
`Serves` is that function.
-/

namespace FlashWeb

open Lib

variable {fs : FileSystem} {s t w w' : Bytes}

/-! ## What comes behind -/

/-- When bytes are left behind a request, those that come later are left behind them. -/
theorem firstRequest_append_left {r : Request} {rest : Bytes} (h : firstRequest s = .get r rest)
    (hrest : rest ≠ []) (t : Bytes) : firstRequest (s ++ t) = .get r (rest ++ t) := by
  rcases firstRequest_cases s with
    ⟨-, hw⟩ | ⟨line, header, hl, hcut, ⟨-, hr⟩ | ⟨m, path, v, hacc, hr⟩⟩
  · rw [hw] at h
    simp at h
  · rw [hr] at h
    simp at h
  · rw [hr] at h
    obtain ⟨rfl, -, u, hd, hrun, hreq⟩ := headerRequest_get h
    -- the scanner has stopped in front of them
    have hhalted := (headerScanner.run_rest hrun).resolve_left hrest
    rw [hcut, List.append_assoc, List.cons_append, firstRequest_accepted hl hacc, headerRequest,
      headerScanner.run_append, hrun, Option.bind_some, if_pos hhalted]
    dsimp only
    rw [if_pos hd, hreq]

theorem Serves.left_of_nil {o : Outcome} (h : Serves fs [] o w) : w = [] :=
  (h.unique (.waiting (firstRequest_again List.not_mem_nil))).2

/-- **What becomes of the bytes of two pieces**, when the first is cut in a request line. -/
theorem Serves.append {o o' : Outcome} (h : Serves fs s o w) (he : o.hasError = false)
    (hw : w = [] → s = []) (h' : Serves fs (w ++ t) o' w') :
    Serves fs (s ++ t) (o.andThen o') w' := by
  induction h with
  | waiting => exact h'
  | refused => exact absurd he (by simp)
  | missing => exact absurd he (by simp)
  | @served s rest w data r o hfirst hfile hserves ih =>
    have hrest : rest ≠ [] := by
      rintro rfl
      have hlen := (firstRequest_get hfirst).2
      rw [hw hserves.left_of_nil] at hlen
      exact absurd hlen (Nat.lt_irrefl _)
    have hnext := ih he (fun hnil => ?_) h'
    · have h := Serves.served (firstRequest_append_left hfirst hrest t) hfile hnext
      simpa [Outcome.andThen] using h
    · have hlen := (firstRequest_get hfirst).2
      rw [hw hnil] at hlen
      exact absurd hlen (Nat.not_lt_zero _)

/-! ## Pieces -/

/-- The event brings the piece, or no bytes at all. -/
def BringsPiece (fs : FileSystem) (d : Dispatch) (piece : Bytes) : Prop :=
  Delivers fs d piece ∨ (piece = [] ∧ Idles d)

/-- What is done for a piece, and the connection behind it if that is no error. -/
structure DoneFor (out : Conn) (o : Outcome) (w : Bytes) : Prop where
  requests : requestsOf out.trace = o.requests
  sent : bytesSent out.trace = o.sent
  awaits : o.hasError = false → lineDelimiter ∉ w → out.http.Awaits w

/-- **What one piece does.** -/
theorem BringsPiece.run {d : Dispatch} {piece : Bytes} {h : Http} (hd : BringsPiece fs d piece)
    (hh : h.Awaits w) (hw : lineDelimiter ∉ w) :
    ∃ o w', Serves fs (w ++ piece) o w' ∧ DoneFor (d.run h) o w' := by
  rcases hd with hd | ⟨rfl, hd⟩
  · obtain ⟨o, w', hs, hby⟩ := handleRead_served hd hh.atRest
    obtain ⟨hrun, hk, hps⟩ := run_served hd hh.atRest hh.keepAlive hby
    refine ⟨o, w', hh.readBuffer ▸ hs, hrun.requests, hrun.sent, fun he hw' => ?_⟩
    have hline := handleRead_atLine hd hh.atRest hs he hw'
    obtain ⟨hrest, hbuf⟩ := hrun.rest he (hps.trans hline)
    exact ⟨hrest, hk, hbuf⟩
  · have hrun : Carried (fun _ => []) [] w (d.run h) := run_idle hd hh
    refine ⟨⟨[], [], [], false⟩, w, ?_, hrun.requests, hrun.sent, fun _ _ => hrun.awaits⟩
    rw [List.append_nil]
    exact .waiting (firstRequest_again hw)

namespace Server

variable {wakeupFd : Nat → Fd} {threadNum : Nat} {s : Server} {k : Nat} {id : HttpId}

end Server

/-! ## An example -/

namespace EventLoop

end EventLoop

namespace Server

end Server

end FlashWeb
