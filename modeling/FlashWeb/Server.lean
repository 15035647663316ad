import FlashWeb.EventLoop

/-!
# The server and its workers

`EventLoopThreadPool::start` starts the worker threads and keeps a pointer to the loop of each;
`Server::HandleNewConn` is given these loops in turn. The loop of a worker is a local variable of
`ThreadFunc`: when `Loop` returns, which it does after five waits that return no channel,
`eventloop_` is set to null and the loop is destroyed, but the pool keeps its pointer. `Quit` is
called by the destructor of the pool only, after the main loop has returned; the model ends there.

A pointer to a loop is the number of its thread. The workers take the steps of
`FlashWeb/EventLoop.lean`, each by itself; an `Init` reaches them from the main thread. Of the main
loop the model keeps its waits and what it does when the listening socket is ready.
-/

namespace FlashWeb

open Lib

/-! ## EventLoopThreadPool -/

/-- `EventLoopThreadPool`, of which `started_` is always true. -/
structure EventLoopThreadPool where
  threadNum : Nat
  nextLoop : Nat
  eventloops : List Nat
  nextLoop_lt : 0 < threadNum → nextLoop < threadNum

namespace EventLoopThreadPool

/-- `EventLoopThreadPool::EventLoopThreadPool` -/
def construct (threadNum : Nat) : EventLoopThreadPool := ⟨threadNum, 0, [], id⟩

/-- `eventloops.push_back(loop)` -/
def push (p : EventLoopThreadPool) (loop : Nat) : EventLoopThreadPool :=
  { p with eventloops := p.eventloops ++ [loop] }

/-- `EventLoopThreadPool::GetNextLoop`. There is no result when its assertion fails. -/
def getNextLoop (p : EventLoopThreadPool) : Option (Nat × EventLoopThreadPool) :=
  if p.threadNum > 0 then
    p.eventloops[p.nextLoop]?.map fun loop =>
      (loop, { p with
        nextLoop := (p.nextLoop + 1) % p.threadNum
        nextLoop_lt := fun h => Nat.mod_lt _ h })
  else none

/-- No hand-out changes the number of threads. -/
theorem threadNum_getNextLoop {p q : EventLoopThreadPool} {loop : Nat}
    (h : p.getNextLoop = some (loop, q)) : q.threadNum = p.threadNum := by
  unfold getNextLoop at h
  split at h
  · obtain ⟨_, _, heq⟩ := Option.map_eq_some_iff.mp h
    cases heq
    rfl
  · simp at h

end EventLoopThreadPool

/-! ## The threads -/

/-- `EventLoopThread` -/
structure EventLoopThread where
  loop : EventLoop
  /-- whether `eventloop_` is set: `Loop` has not returned -/
  inLoop : Bool

/-- Where the main thread stands. -/
inductive MainStage where
  /-- in `EventLoopThreadPool::start`, before the next thread -/
  | starting
  /-- in `GetLoop` of the thread `k`, which waits until `eventloop_` is set -/
  | gettingLoop (k : Nat)
  /-- in `EpollWait` of the main loop -/
  | polling
  /-- in `Server::HandleNewConn`, before `accept` -/
  | accepting
  /-- between `GetNextLoop`, which returned `k`, and `RunFunction` -/
  | handing (k : Nat) (fd : Fd)
  deriving DecidableEq, Repr

/-- A loop that the main thread took up, and whether it was in `Loop` then. -/
structure Handed where
  loop : Nat
  inLoop : Bool
  deriving DecidableEq, Repr

/-- The state of all threads. -/
structure Server where
  pool : EventLoopThreadPool
  /-- the number of threads so far; `threads` says nothing of later numbers -/
  started : Nat
  threads : Nat → EventLoopThread
  main : MainStage
  /-- `timeout_count` of the main loop -/
  timeoutCount : Nat
  /-- what `GetNextLoop` returned so far -/
  handed : List Handed
  /-- what `RunFunction` was called on so far -/
  queued : List Handed

namespace Server

variable (s : Server)

/-- `Server::Server` -/
def construct (threadNum : Nat) : Server where
  pool := .construct threadNum
  started := 0
  threads _ := ⟨EventLoop.construct 0 0, false⟩
  main := .starting
  timeoutCount := 0
  handed := []
  queued := []

/-- The loop of the thread `k`, as it is now. -/
def take (k : Nat) : Handed := ⟨k, (s.threads k).inLoop⟩

/-- The server with another thread `k`. -/
def setThread (k : Nat) (t : EventLoopThread) : Server :=
  { s with threads := Function.update s.threads k t }

@[simp] theorem setThread_self (k : Nat) (t : EventLoopThread) :
    (s.setThread k t).threads k = t := Function.update_self ..

theorem setThread_ne {k j : Nat} (t : EventLoopThread) (hj : j ≠ k) :
    (s.setThread k t).threads j = s.threads j := Function.update_of_ne hj ..

/-- The thread `k` with its loop in another state. -/
def setLoop (k : Nat) (loop : EventLoop) : Server :=
  s.setThread k { s.threads k with loop := loop }

/-- A thread is constructed, and its loop in it. -/
def spawn (wakeupFd : Fd) (now : Nat) : Server :=
  { s.setThread s.started ⟨EventLoop.construct wakeupFd now, true⟩ with
    started := s.started + 1
    main := .gettingLoop s.started }

/-- `GetNextLoop` returns `k` for the accepted descriptor. -/
def accept (k : Nat) (pool : EventLoopThreadPool) (fd : Fd) : Server :=
  { s with pool := pool, main := .handing k fd, handed := s.handed ++ [s.take k] }

/-- `new_loop->RunFunction(Http::Init)`. A destroyed loop is treated as if it were still there. -/
def runFunction (k : Nat) (fd : Fd) : Server :=
  { s.setLoop k ((s.threads k).loop.accept fd) with
    main := .accepting
    queued := s.queued ++ [s.take k] }

end Server

/-! ## Steps -/

/-- What happens in a step. -/
inductive ServerStep where
  | spawn (now : Nat)
  | getLoop
  | listen
  /-- `EpollWait` of the main loop, and whether the listening socket is ready -/
  | wait (ready : Bool)
  | accept (fd : Fd)
  | runFunction
  | accepted
  | worker (k : Nat) (a : LoopStep)
  | leave (k : Nat)

/-- The steps of the threads. `wakeupFd` are the eventfds of the worker loops. -/
inductive ServerSteps (wakeupFd : Nat → Fd) : Server → ServerStep → Server → Prop where
  | spawn {s : Server} (now : Nat) : s.main = .starting → s.started < s.pool.threadNum →
      ServerSteps wakeupFd s (.spawn now) (s.spawn (wakeupFd s.started) now)
  | getLoop {s : Server} {k : Nat} : s.main = .gettingLoop k → (s.threads k).inLoop = true →
      ServerSteps wakeupFd s .getLoop { s with main := .starting, pool := s.pool.push k }
  | listen {s : Server} : s.main = .starting → ¬ s.started < s.pool.threadNum →
      ServerSteps wakeupFd s .listen { s with main := .polling }
  | wait {s : Server} (ready : Bool) : s.main = .polling → s.timeoutCount < 5 →
      ServerSteps wakeupFd s (.wait ready) { s with
        main := if ready then .accepting else .polling
        timeoutCount := if ready then s.timeoutCount else s.timeoutCount + 1 }
  /-- `accept` returns a descriptor; `0` would end the loop -/
  | accept {s : Server} {k : Nat} {pool : EventLoopThreadPool} (fd : Fd) : s.main = .accepting →
      0 < fd → s.pool.getNextLoop = some (k, pool) →
      ServerSteps wakeupFd s (.accept fd) (s.accept k pool fd)
  | runFunction {s : Server} {k : Nat} {fd : Fd} : s.main = .handing k fd →
      Steps (wakeupFd k) (s.threads k).loop (.accept fd) ((s.threads k).loop.accept fd) →
      ServerSteps wakeupFd s .runFunction (s.runFunction k fd)
  /-- `accept` returns none -/
  | accepted {s : Server} : s.main = .accepting →
      ServerSteps wakeupFd s .accepted { s with main := .polling }
  | worker {s : Server} (k : Nat) {a : LoopStep} {t : EventLoop} : k < s.started →
      (s.threads k).inLoop = true → (∀ fd, a ≠ .accept fd) →
      Steps (wakeupFd k) (s.threads k).loop a t →
      ServerSteps wakeupFd s (.worker k a) (s.setLoop k t)
  /-- the condition of the loop in `Loop` fails -/
  | leave {s : Server} (k : Nat) : k < s.started → (s.threads k).inLoop = true →
      (s.threads k).loop.phase = .polling → ¬ (s.threads k).loop.timeoutCount < 5 →
      ServerSteps wakeupFd s (.leave k) (s.setThread k { s.threads k with inLoop := false })

/-- The runs of a server with `threadNum` workers. -/
def servers (wakeupFd : Nat → Fd) (threadNum : Nat) : System Server ServerStep where
  init s := s = Server.construct threadNum
  step := ServerSteps wakeupFd

end FlashWeb
