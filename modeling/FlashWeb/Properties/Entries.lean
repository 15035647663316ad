import FlashWeb.EventLoop

/-!
# The maps of an `Epoll`

`fd2channel_`, `fd2http_` and the interest list of the kernel are changed together, so that on every
descriptor they agree: nothing, the eventfd, or a connection that has this descriptor.
-/

namespace FlashWeb

/-! ## One descriptor -/

/-- What the maps and the kernel hold for one descriptor. -/
inductive Entry (wakeupFd : Fd) (channels : Fd → Option (Option ChannelRef))
    (https : Fd → Option (Option HttpId)) (interest : Fd → Option EventMask)
    (fdOf : HttpId → Fd) (fd : Fd) : Prop where
  | absent : channels fd = none → https fd = none → interest fd = none →
      Entry wakeupFd channels https interest fdOf fd
  | wakeup : fd = wakeupFd → channels fd = some (some .wakeup) → https fd = some none →
      (interest fd).isSome → Entry wakeupFd channels https interest fdOf fd
  | http (id : HttpId) : fd ≠ wakeupFd → fdOf id = fd → channels fd = some (some (.http id)) →
      https fd = some (some id) → (interest fd).isSome →
      Entry wakeupFd channels https interest fdOf fd

section

variable {wakeupFd : Fd} {channels : Fd → Option (Option ChannelRef)}
  {https : Fd → Option (Option HttpId)} {interest : Fd → Option EventMask} {fdOf : HttpId → Fd}

/-- An entry only depends on what the maps hold for its descriptor. -/
theorem Entry.congr {fd : Fd} {channels' : Fd → Option (Option ChannelRef)}
    {https' : Fd → Option (Option HttpId)} {interest' : Fd → Option EventMask}
    (h : Entry wakeupFd channels https interest fdOf fd) (hc : channels' fd = channels fd)
    (hh : https' fd = https fd) (hi : (interest' fd).isSome = (interest fd).isSome) :
    Entry wakeupFd channels' https' interest' fdOf fd := by
  cases h with
  | absent h1 h2 h3 =>
    refine .absent (hc.trans h1) (hh.trans h2) ?_
    rw [h3] at hi
    exact Option.isNone_iff_eq_none.mp (by simpa using hi)
  | wakeup hw h1 h2 h3 => exact .wakeup hw (hc.trans h1) (hh.trans h2) (hi.trans h3)
  | http id hw hid h1 h2 h3 => exact .http id hw hid (hc.trans h1) (hh.trans h2) (hi.trans h3)

/-- The maps and the kernel agree. -/
def EntriesOk (wakeupFd : Fd) (channels : Fd → Option (Option ChannelRef))
    (https : Fd → Option (Option HttpId)) (interest : Fd → Option EventMask)
    (fdOf : HttpId → Fd) : Prop :=
  ∀ fd, Entry wakeupFd channels https interest fdOf fd

namespace EntriesOk

variable (h : EntriesOk wakeupFd channels https interest fdOf)

include h

theorem keys (fd : Fd) : (channels fd).isSome = (https fd).isSome := by
  rcases h fd with ⟨h1, h2, -⟩ | ⟨-, h1, h2, -⟩ | ⟨id, -, -, h1, h2, -⟩ <;> rw [h1, h2] <;> rfl

theorem not_null (fd : Fd) : channels fd ≠ some none := by
  rcases h fd with ⟨h1, -, -⟩ | ⟨-, h1, -, -⟩ | ⟨id, -, -, h1, -, -⟩ <;> rw [h1] <;> simp

/-- The kernel only reports descriptors that have a channel. -/
theorem channel_of_interest {fd : Fd} (hi : (interest fd).isSome) :
    ∃ c, channels fd = some (some c) := by
  rcases h fd with ⟨-, -, h3⟩ | ⟨-, h1, -, -⟩ | ⟨id, -, -, h1, -, -⟩
  · simp [h3] at hi
  · exact ⟨_, h1⟩
  · exact ⟨_, h1⟩

/-- A descriptor belongs to the connection that it is registered for. -/
theorem of_https {fd : Fd} {id : HttpId} (hf : https fd = some (some id)) :
    fdOf id = fd ∧ fd ≠ wakeupFd ∧ channels fd = some (some (.http id)) ∧
      (interest fd).isSome := by
  rcases h fd with ⟨-, h2, -⟩ | ⟨-, -, h2, -⟩ | ⟨j, hw, hj, h1, h2, h3⟩
  · simp [h2] at hf
  · simp [h2] at hf
  · obtain rfl : j = id := by simpa [h2] using hf
    exact ⟨hj, hw, h1, h3⟩

theorem of_channel {fd : Fd} {id : HttpId} (hf : channels fd = some (some (.http id))) :
    fdOf id = fd ∧ https fd = some (some id) := by
  rcases h fd with ⟨h1, -, -⟩ | ⟨-, h1, -, -⟩ | ⟨j, -, hj, h1, h2, -⟩
  · simp [h1] at hf
  · simp [h1] at hf
  · obtain rfl : j = id := by simpa [h1] using hf
    exact ⟨hj, h2⟩

theorem wakeup_of_channel {fd : Fd} (hf : channels fd = some (some .wakeup)) :
    fd = wakeupFd := by
  rcases h fd with ⟨h1, -, -⟩ | ⟨hw, -, -, -⟩ | ⟨j, -, -, h1, -, -⟩
  · simp [h1] at hf
  · exact hw
  · simp [h1] at hf

/-- A descriptor of no registered connection, and not the eventfd, is in neither map. -/
theorem absent {fd : Fd} (hw : fd ≠ wakeupFd) (hf : ∀ id, https fd ≠ some (some id)) :
    channels fd = none ∧ https fd = none ∧ interest fd = none := by
  rcases h fd with ⟨h1, h2, h3⟩ | ⟨hw', -, -, -⟩ | ⟨j, -, -, -, h2, -⟩
  · exact ⟨h1, h2, h3⟩
  · exact absurd hw' hw
  · exact absurd h2 (hf j)

/-- `EpollAdd` of a connection whose descriptor is in neither map. -/
theorem add {id : HttpId} (events : EventMask) (hw : fdOf id ≠ wakeupFd)
    (hf : ∀ j, https (fdOf id) ≠ some (some j)) :
    EntriesOk wakeupFd (EventLoop.insert channels (fdOf id) (some (.http id)))
      (EventLoop.insert https (fdOf id) (some id))
      (EventLoop.insert interest (fdOf id) events) fdOf := by
  obtain ⟨h1, h2, h3⟩ := h.absent hw hf
  intro fd
  simp only [EventLoop.insert, h1, h2, h3, Option.isNone_none, if_true]
  by_cases hfd : fd = fdOf id
  · subst hfd
    exact .http id hw rfl (Function.update_self ..) (Function.update_self ..)
      (by rw [Function.update_self]; rfl)
  · exact (h fd).congr (Function.update_of_ne hfd ..) (Function.update_of_ne hfd ..)
      (by rw [Function.update_of_ne hfd])

/-- `EpollModify` keeps the set of descriptors. -/
theorem modify (fd : Fd) (events : EventMask) :
    EntriesOk wakeupFd channels https
      (if (interest fd).isSome then Function.update interest fd (some events) else interest)
      fdOf := by
  intro k
  refine (h k).congr rfl rfl ?_
  split
  · next hi =>
    by_cases hk : k = fd
    · subst hk
      rw [Function.update_self]
      exact hi.symm
    · rw [Function.update_of_ne hk]
  · rfl

/-- `EpollDel` forgets one descriptor. -/
theorem del (fd : Fd) : EntriesOk wakeupFd (Function.update channels fd none)
    (Function.update https fd none) (Function.update interest fd none) fdOf := by
  intro k
  by_cases hk : k = fd
  · subst hk
    exact .absent (Function.update_self ..) (Function.update_self ..) (Function.update_self ..)
  · exact (h k).congr (Function.update_of_ne hk ..) (Function.update_of_ne hk ..)
      (by rw [Function.update_of_ne hk])

/-- A connection that is not registered gets its descriptor. -/
theorem accept {id : HttpId} (hid : https (fdOf id) ≠ some (some id)) (fd : Fd) :
    EntriesOk wakeupFd channels https interest (Function.update fdOf id fd) := by
  intro k
  rcases h k with ⟨h1, h2, h3⟩ | ⟨hw, h1, h2, h3⟩ | ⟨j, hw, hj, h1, h2, h3⟩
  · exact .absent h1 h2 h3
  · exact .wakeup hw h1 h2 h3
  · refine .http j hw ?_ h1 h2 h3
    rw [Function.update_of_ne]
    · exact hj
    · rintro rfl
      rw [hj] at hid
      exact hid h2

end EntriesOk

end

end FlashWeb
