import FlashWeb.Bytes

/-!
# What the kernel answers

The server talks to the kernel through `read`, `write`, `stat`, `open`, `mmap` and `epoll`. The
results of `read` and `write` on one descriptor are taken in turn from two lists, so a list says
everything the kernel does during one dispatch; when a list is used up `read` answers `EAGAIN` and
`write` takes all it is given. The file system is a function of the path.
-/

namespace FlashWeb

/-! ## Event masks -/

/-- The flags of `epoll_event::events` that the source uses. -/
structure EventMask where
  epollin : Bool
  epollpri : Bool
  epollout : Bool
  epollrdhup : Bool
  epollerr : Bool
  epollhup : Bool
  epollet : Bool
  deriving DecidableEq, Repr

/-- The mask `0`. -/
def EventMask.zero : EventMask := ⟨false, false, false, false, false, false, false⟩

/-- `EPOLLIN | EPOLLET` -/
def EventMask.inEt : EventMask := ⟨true, false, false, false, false, false, true⟩

/-- `EPOLLOUT | EPOLLET` -/
def EventMask.outEt : EventMask := ⟨false, false, true, false, false, false, true⟩

/--
What `epoll_wait` may report for a descriptor registered with the mask `interest`: flags that were
asked for, and `EPOLLERR` and `EPOLLHUP`, which the kernel reports unasked; at least one of them.
-/
structure EventMask.Reportable (interest active : EventMask) : Prop where
  epollin : active.epollin → interest.epollin
  epollpri : active.epollpri → interest.epollpri
  epollout : active.epollout → interest.epollout
  epollrdhup : active.epollrdhup → interest.epollrdhup
  some : active.epollin ∨ active.epollpri ∨ active.epollout ∨ active.epollrdhup ∨
    active.epollerr ∨ active.epollhup

theorem EventMask.reportable_iff (interest active : EventMask) : interest.Reportable active ↔
    (active.epollin → interest.epollin) ∧ (active.epollpri → interest.epollpri) ∧
      (active.epollout → interest.epollout) ∧ (active.epollrdhup → interest.epollrdhup) ∧
      (active.epollin ∨ active.epollpri ∨ active.epollout ∨ active.epollrdhup ∨
        active.epollerr ∨ active.epollhup) :=
  ⟨fun ⟨h1, h2, h3, h4, h5⟩ => ⟨h1, h2, h3, h4, h5⟩,
    fun ⟨h1, h2, h3, h4, h5⟩ => ⟨h1, h2, h3, h4, h5⟩⟩

instance (interest active : EventMask) : Decidable (interest.Reportable active) :=
  decidable_of_iff _ (EventMask.reportable_iff interest active).symm

/-! ## read and write -/

/-- `const int MAX_BUF_SIZE = 4 * 1024` -/
def MAX_BUF_SIZE : Nat := 4 * 1024

/-- The bytes of one successful `read`: at least one, and no more than the buffer holds. -/
structure Chunk where
  bytes : Bytes
  nonempty : bytes ≠ []
  fits : bytes.length ≤ MAX_BUF_SIZE

/-- One result of `read(fd, buf, MAX_BUF_SIZE)`. -/
inductive ReadResult where
  | data (chunk : Chunk)
  /-- the result `0` -/
  | eof
  | eintr
  | eagain
  /-- any other `errno` -/
  | failed

/-- One result of `write(fd, ptr, left)`. -/
inductive WriteResult where
  /-- the kernel takes `k` bytes, or all of them when there are fewer; `wrote 0` is a result `0` -/
  | wrote (k : Nat)
  | eintr
  | eagain
  /-- any other `errno` -/
  | failed
  deriving DecidableEq, Repr

/-- The bytes that a list of `read` results still delivers. -/
def delivered : List ReadResult → Bytes
  | [] => []
  | .data chunk :: rs => chunk.bytes ++ delivered rs
  | _ :: rs => delivered rs

/-! ## Files -/

/--
The files as `ProcessRequest` sees them. A path is what `c_str()` yields. `mmap` maps `len` bytes
or fails with `MAP_FAILED`, so the length of the mapping is the length it was asked for.
-/
structure FileSystem where
  /-- `st_size` when `stat` succeeds -/
  stat : Bytes → Option Nat
  /-- whether `open(path, O_RDONLY)` succeeds -/
  opens : Bytes → Bool
  mmap : Bytes → (len : Nat) → Option { data : Bytes // data.length = len }

/-- `std::string::c_str()`: the callee reads up to the first NUL byte. -/
def cStr (s : Bytes) : Bytes := s.takeWhile (· ≠ 0)

end FlashWeb
