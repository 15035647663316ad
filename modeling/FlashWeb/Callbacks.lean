import FlashWeb.Lib.Runs
import Mathlib.Logic.Function.Basic

/-!
# Handing callbacks to a loop

`RunFunction` as other threads call it: `QueueINCallback` pushes the callback under
`callback_list_mutex_`, and after that `WakeUpTargetEventLoop` writes to the eventfd. The loop
waits, handles events, swaps the list for an empty one under the mutex and runs what it took. The
eventfd is edge-triggered and never read: a write makes an event pending, and `EpollWait` returns it
at most once. What the callbacks and the events are does not matter here.
-/

namespace FlashWeb

open Lib

section

variable (Producer Callback : Type)

/-- A callback that was pushed. -/
structure Posted where
  /-- how many were pushed before it -/
  number : Nat
  producer : Producer
  callback : Callback
  deriving DecidableEq, Repr

/-- Where the loop stands. -/
inductive Stage where
  /-- blocked in `EpollWait` -/
  | waiting
  /-- in the loop over `returned_channels` -/
  | handling
  /-- in `DoCallbacks`, with `batch` of `to_copy_list` left -/
  | running (batch : List (Posted Producer Callback))
  /-- in `HandleExpire` -/
  | expiring

/-- A loop and the threads that call its `RunFunction`. -/
structure Handoff where
  callbackList : List (Posted Producer Callback)
  /-- an event of the eventfd that `EpollWait` has not returned yet -/
  wakeupPending : Bool
  stage : Stage Producer Callback
  /-- the push after which a thread has still to call `WakeUpTargetEventLoop` -/
  owes : Producer → Option Nat
  /-- the callbacks pushed so far -/
  pushed : List (Posted Producer Callback)
  /-- the callbacks run so far -/
  ran : List (Posted Producer Callback)

/-- What happens in a step. -/
inductive HandoffStep where
  | push (p : Producer) (callback : Callback)
  | wakeUp (p : Producer)
  | epollWait (woken : Bool)
  | handleEvents
  | swap
  | run
  | ran
  | handleExpire

end

variable {Producer Callback : Type}

namespace Handoff

/-- Before anything was pushed. -/
def empty : Handoff Producer Callback := ⟨[], false, .waiting, fun _ => none, [], []⟩

variable (s : Handoff Producer Callback)

/-- The rest of the batch that is being run. -/
def batch : List (Posted Producer Callback) :=
  match s.stage with
  | .running batch => batch
  | _ => []

/-- The next callback of `p`. -/
def post (p : Producer) (callback : Callback) : Posted Producer Callback :=
  ⟨s.pushed.length, p, callback⟩

variable [DecidableEq Producer]

/-- `QueueINCallback` up to the end of the block that holds the mutex. -/
def push (p : Producer) (callback : Callback) : Handoff Producer Callback :=
  { s with
    callbackList := s.callbackList ++ [s.post p callback]
    owes := Function.update s.owes p (some s.pushed.length)
    pushed := s.pushed ++ [s.post p callback] }

/-- `WakeUpTargetEventLoop` -/
def wakeUp (p : Producer) : Handoff Producer Callback :=
  { s with wakeupPending := true, owes := Function.update s.owes p none }

end Handoff

variable [DecidableEq Producer]

/-- The steps of the threads and of the loop. -/
inductive HandoffSteps : Handoff Producer Callback → HandoffStep Producer Callback →
    Handoff Producer Callback → Prop where
  | push {s} (p : Producer) (callback : Callback) : s.owes p = none →
      HandoffSteps s (.push p callback) (s.push p callback)
  | wakeUp {s} {p : Producer} {k : Nat} : s.owes p = some k →
      HandoffSteps s (.wakeUp p) (s.wakeUp p)
  /-- `EpollWait` returns, for the eventfd or for something else -/
  | epollWait {s} (woken : Bool) : s.stage = .waiting → (woken = true → s.wakeupPending = true) →
      HandoffSteps s (.epollWait woken)
        { s with stage := .handling, wakeupPending := s.wakeupPending && !woken }
  /-- one of the returned channels -/
  | handleEvents {s} : s.stage = .handling → HandoffSteps s .handleEvents s
  | swap {s} : s.stage = .handling →
      HandoffSteps s .swap { s with callbackList := [], stage := .running s.callbackList }
  | run {s} {c : Posted Producer Callback} {batch : List (Posted Producer Callback)} :
      s.stage = .running (c :: batch) →
      HandoffSteps s .run { s with stage := .running batch, ran := s.ran ++ [c] }
  | ran {s} : s.stage = .running [] → HandoffSteps s .ran { s with stage := .expiring }
  | handleExpire {s} : s.stage = .expiring →
      HandoffSteps s .handleExpire { s with stage := .waiting }

/-- All interleavings. -/
def handoffs : System (Handoff Producer Callback) (HandoffStep Producer Callback) where
  init s := s = Handoff.empty
  step := HandoffSteps

end FlashWeb
