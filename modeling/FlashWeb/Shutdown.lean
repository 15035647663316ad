import FlashWeb.Server

/-!
# Shutting down

When the main loop has left `Loop`, `Server::start` returns and `main` calls `Server::shutdown`,
which destroys the pool: `~EventLoopThreadPool` calls `Quit` on every loop that it has a pointer to
and joins every thread. `Quit` clears `is_looping_`, which a loop reads before each `EpollWait`; a
loop that waits already finishes its round first. A worker whose loop has returned destroys it and
ends, the pool keeps its pointer, and `Quit` is called on what was there.

Until `start` returns the threads do what `FlashWeb/Server.lean` says, with the condition of the
loop in `Loop` in a step of its own. The flag is read and written in one step each.
-/

namespace FlashWeb

open Lib

/-! ## The process -/

/-- Where `main` stands. -/
inductive MainPhase where
  /-- in `Server::start` -/
  | serving
  /-- in `~EventLoopThreadPool`, before `Quit` of `eventloops[i]` -/
  | quitting (i : Nat)
  /-- before `join` of `threads[i]` -/
  | joining (i : Nat)
  /-- before `delete eventloop` -/
  | deleting
  | returned
  deriving DecidableEq, Repr

/-- A call of `Quit`, and whether the loop was still there. -/
structure QuitCall where
  loop : Nat
  alive : Bool
  deriving DecidableEq, Repr

/-- The state of the process. -/
structure Process where
  server : Server
  /-- `is_looping_` of the loops of the workers -/
  isLooping : Nat → Bool
  /-- whether a worker is in `EpollWait` -/
  waiting : Nat → Bool
  /-- whether a worker has destroyed its loop and ended -/
  ended : Nat → Bool
  main : MainPhase
  /-- the calls of `Quit` so far -/
  quits : List QuitCall

namespace Process

variable (s : Process)

/-- `main`, when the server is constructed -/
def construct (threadNum : Nat) : Process where
  server := .construct threadNum
  isLooping _ := true
  waiting _ := false
  ended _ := false
  main := .serving
  quits := []

/-- The worker `k`. -/
def thread (k : Nat) : EventLoopThread := s.server.threads k

/-- The condition of the loop in `Loop`. -/
def loopCondition (k : Nat) : Bool := s.isLooping k && (s.thread k).loop.timeoutCount < 5

/-- The worker `k` is about to check the condition. -/
structure AtCondition (k : Nat) : Prop where
  started : k < s.server.started
  inLoop : (s.thread k).inLoop = true
  phase : (s.thread k).loop.phase = .polling
  waiting : s.waiting k = false

/-- `EventLoop::Quit` of the loop `k`. A destroyed loop is treated as if it were still there. -/
def quit (k : Nat) : Process :=
  { s with
    isLooping := if s.isLooping k then Function.update s.isLooping k false else s.isLooping
    quits := s.quits ++ [⟨k, !s.ended k⟩] }

/-- The worker `k` goes into `EpollWait`, or comes out of it. -/
def setWaiting (k : Nat) (b : Bool) : Process :=
  { s with waiting := Function.update s.waiting k b }

/-- `Loop` returns and `eventloop_` is set to null. -/
def leave (k : Nat) : Process :=
  { s with server := s.server.setThread k { s.thread k with inLoop := false } }

/-- The loop is destroyed and the thread ends. -/
def finish (k : Nat) : Process :=
  { s with ended := Function.update s.ended k true }

end Process

/-! ## Steps -/

/-- What happens in a step. -/
inductive ProcessStep where
  /-- a step of the main thread in `Server::start` -/
  | serve (a : ServerStep)
  | startReturns
  | quit
  | quitAll
  | join
  | joinAll
  | delete
  /-- the condition of the loop in `Loop` holds -/
  | check (k : Nat)
  | worker (k : Nat) (a : LoopStep)
  /-- the condition of the loop in `Loop` fails -/
  | leave (k : Nat)
  | finish (k : Nat)

/-- The steps of the main thread. -/
def ServerStep.OfMain : ServerStep → Prop
  | .worker _ _ => False
  | .leave _ => False
  | _ => True

/-- `EpollWait` returns. -/
def LoopStep.isWait : LoopStep → Bool
  | .wait _ => true
  | _ => false

open Process in
/-- The steps of the threads. -/
inductive ProcessSteps (wakeupFd : Nat → Fd) : Process → ProcessStep → Process → Prop where
  | serve {s : Process} {a : ServerStep} {t : Server} : s.main = .serving → a.OfMain →
      ServerSteps wakeupFd s.server a t → ProcessSteps wakeupFd s (.serve a) { s with server := t }
  /-- the condition of the loop in `Loop` fails in the main loop, of which `is_looping_` is true -/
  | startReturns {s : Process} : s.main = .serving → s.server.main = .polling →
      ¬ s.server.timeoutCount < 5 →
      ProcessSteps wakeupFd s .startReturns { s with main := .quitting 0 }
  | quit {s : Process} {i k : Nat} : s.main = .quitting i →
      s.server.pool.eventloops[i]? = some k →
      ProcessSteps wakeupFd s .quit { s.quit k with main := .quitting (i + 1) }
  | quitAll {s : Process} {i : Nat} : s.main = .quitting i →
      s.server.pool.eventloops.length ≤ i →
      ProcessSteps wakeupFd s .quitAll { s with main := .joining 0 }
  | join {s : Process} {i : Nat} : s.main = .joining i → i < s.server.started →
      s.ended i = true → ProcessSteps wakeupFd s .join { s with main := .joining (i + 1) }
  | joinAll {s : Process} {i : Nat} : s.main = .joining i → s.server.started ≤ i →
      ProcessSteps wakeupFd s .joinAll { s with main := .deleting }
  | delete {s : Process} : s.main = .deleting →
      ProcessSteps wakeupFd s .delete { s with main := .returned }
  | check {s : Process} (k : Nat) : s.AtCondition k → s.loopCondition k = true →
      ProcessSteps wakeupFd s (.check k) (s.setWaiting k true)
  | worker {s : Process} (k : Nat) {a : LoopStep} {t : Server} :
      (a.isWait = true → s.waiting k = true) →
      ServerSteps wakeupFd s.server (.worker k a) t →
      ProcessSteps wakeupFd s (.worker k a)
        { s.setWaiting k (s.waiting k && !a.isWait) with server := t }
  | leave {s : Process} (k : Nat) : s.AtCondition k → s.loopCondition k = false →
      ProcessSteps wakeupFd s (.leave k) (s.leave k)
  | finish {s : Process} (k : Nat) : k < s.server.started → (s.thread k).inLoop = false →
      s.ended k = false → ProcessSteps wakeupFd s (.finish k) (s.finish k)

/-- The runs of a process with `threadNum` workers. -/
def processes (wakeupFd : Nat → Fd) (threadNum : Nat) : System Process ProcessStep where
  init s := s = Process.construct threadNum
  step := ProcessSteps wakeupFd

end FlashWeb
