import FlashWeb.Http.Handlers
import FlashWeb.Timer
import FlashWeb.Lib.Runs

/-!
# An event loop and its connections

One worker loop of the thread pool: its `Epoll`, the queue of timers, the callbacks that the
accepting thread queues, and the connections. `Loop` is cut into steps between which the other
thread may accept a connection and time may pass. One event on a connection is `begin`, which runs
the callbacks, and one `effect` for each call they make on the loop, in the order they make them.

A connection is a number, and the maps hold numbers for pointers. Its members stay readable after
its last owner is gone; `owners` says when that happens. The last fields of the state only record
what happened.
-/

namespace FlashWeb

open Lib

/-! ## The state -/

/-- A file descriptor. -/
abbrev Fd := Nat

/-- A channel, by what it belongs to. -/
inductive ChannelRef where
  | wakeup
  | http (id : HttpId)
  deriving DecidableEq, Repr

/-- A channel and its `active_events_`. -/
abbrev Active := ChannelRef × EventMask

/-- `HandleEvents` on the channel of a connection. -/
structure Handling where
  id : HttpId
  dispatch : Dispatch
  /-- the connection as `HandleEvents` found it -/
  found : Http
  /-- the calls on the loop still to be made -/
  todo : List Effect
  /-- the channels that come after this one -/
  active : List Active

/-- Where `Loop` stands. -/
inductive LoopPhase where
  /-- in `EpollWait` -/
  | polling
  /-- before `HandleEvents` on the first of the channels -/
  | dispatching (active : List Active)
  | handling (h : Handling)
  /-- in `DoCallbacks`, with `batch` of `to_copy_list` left -/
  | running (batch : List HttpId)
  /-- in `HandleExpire` -/
  | expiring

/-- A call of `EpollAdd` or `EpollModify` with a timeout. -/
structure Arming where
  /-- the node that it creates -/
  node : NodeId
  time : Nat
  timeout : Nat
  deriving DecidableEq, Repr

/-- The state of a loop and of the connections accepted for it. -/
structure EventLoop where
  fd2channel : Fd → Option (Option ChannelRef)
  fd2http : Fd → Option (Option HttpId)
  /-- the interest list of the kernel's epoll instance -/
  interest : Fd → Option EventMask
  timerManager : TimerManager
  /-- the callbacks are `Http::Init` of these connections -/
  callbackList : List HttpId
  timeoutCount : Nat
  phase : LoopPhase
  now : Nat
  /-- the number of connections so far; the maps below say nothing of later numbers -/
  accepted : HttpId
  fdOf : HttpId → Fd
  http : HttpId → Http
  /-- `timer_` -/
  timer : HttpId → Option NodeId
  /-- the last arming of each connection -/
  armed : HttpId → Option Arming
  /-- for each `EpollAdd`, whether its key was absent from both maps -/
  adds : List Bool
  /-- for each `EpollDel`, how many entries `fd2channel_.erase(fd)` removed -/
  dels : List Nat
  /-- how often `HandleClose` ran -/
  closes : HttpId → Nat

namespace EventLoop

variable (s : EventLoop)

/-! ## Owners -/

/-- `fd2http_` holds the connection. -/
def Registered (id : HttpId) : Prop := s.fd2http (s.fdOf id) = some (some id)

/-- A node in the queue holds the connection. -/
def Timed (id : HttpId) : Prop := s.timerManager.Holds id

/-- The connections whose `Init` has not run yet. -/
def pending : List HttpId :=
  match s.phase with
  | .running batch => batch ++ s.callbackList
  | _ => s.callbackList

/-- Something that holds a `shared_ptr` to a connection. -/
inductive Owner where
  | fd2http
  | node (n : TimerNode)
  | initCallback

/--
The owners of a connection on its loop. The local `new_http` of `Server::HandleNewConn` holds it too
while `RunFunction` queues its `Init`, and to the end of that round of the `while`; what the main
thread holds is not counted.
-/
def owners (id : HttpId) : Set Owner := fun
  | .fd2http => s.Registered id
  | .node n => n ∈ s.timerManager.timerNodeQueue ∧ n.data = some id
  | .initCallback => id ∈ s.pending

/-- Whether a `weak_ptr` to the connection can be locked, `new_http` apart. -/
def Owned (id : HttpId) : Prop := s.Registered id ∨ s.Timed id ∨ id ∈ s.pending

instance (id : HttpId) : Decidable (s.Registered id) := inferInstanceAs (Decidable (_ = _))

instance (id : HttpId) : Decidable (s.Timed id) :=
  inferInstanceAs (Decidable (s.timerManager.Holds id))

instance (id : HttpId) : Decidable (s.Owned id) := inferInstanceAs (Decidable (_ ∨ _ ∨ _))

/-- A connection is owned as long as it has an owner. -/
theorem owners_nonempty (id : HttpId) : (s.owners id).Nonempty ↔ s.Owned id := by
  constructor
  · rintro ⟨_ | n | _, h⟩
    · exact Or.inl h
    · exact Or.inr (Or.inl ⟨n, h⟩)
    · exact Or.inr (Or.inr h)
  · rintro (h | ⟨n, hn⟩ | h)
    · exact ⟨.fd2http, h⟩
    · exact ⟨.node n, hn⟩
    · exact ⟨.initCallback, h⟩

/-! ## Epoll -/

/-- `map.insert(std::pair(fd, v))` -/
def insert {α : Type} (map : Fd → Option α) (fd : Fd) (v : α) : Fd → Option α :=
  if (map fd).isNone then Function.update map fd (some v) else map

/-- `Channel::GetHolder` -/
def getHolder : ChannelRef → Option HttpId
  | .wakeup => none
  | .http id => if s.Owned id then some id else none

/-- `Epoll::add_timer` -/
def addTimer (channel : ChannelRef) (timeout : Nat) : EventLoop :=
  match s.getHolder channel with
  | some id => { s with
      timerManager := s.timerManager.addTimerNode id timeout s.now
      timer := Function.update s.timer id (some s.timerManager.created) }
  | none => s

variable {s} in
theorem getHolder_http {id : HttpId} (h : s.Owned id) : s.getHolder (.http id) = some id :=
  if_pos h

variable {s} in
theorem addTimer_http {id : HttpId} (h : s.Owned id) (timeout : Nat) :
    s.addTimer (.http id) timeout = { s with
      timerManager := s.timerManager.addTimerNode id timeout s.now
      timer := Function.update s.timer id (some s.timerManager.created) } := by
  rw [addTimer, getHolder_http h]

/-- The record of an arming. -/
def recordArming (id : HttpId) (timeout : Nat) : EventLoop :=
  let arming : Arming := ⟨s.timerManager.created, s.now, timeout⟩
  { s with armed := Function.update s.armed id (some arming) }

/-- `Epoll::EpollAdd` of a channel with descriptor `fd` and `to_listen_events_` `events`. -/
def epollAdd (channel : ChannelRef) (fd : Fd) (events : EventMask) (timeout : Nat) : EventLoop :=
  let s := { s with interest := insert s.interest fd events }
  let s := if timeout > 0 then s.addTimer channel timeout else s
  { s with
    fd2channel := insert s.fd2channel fd (some channel)
    fd2http := insert s.fd2http fd (s.getHolder channel)
    adds := s.adds ++ [(s.fd2channel fd).isNone && (s.fd2http fd).isNone] }

/-- `Epoll::EpollModify` of the channel of a connection. -/
def epollModify (id : HttpId) (events : EventMask) (timeout : Nat) : EventLoop :=
  let fd := s.fdOf id
  let s := { s with interest :=
    if (s.interest fd).isSome then Function.update s.interest fd (some events) else s.interest }
  if timeout > 0 then (s.recordArming id timeout).addTimer (.http id) timeout else s

/-- `Epoll::EpollDel` of the channel of a connection. -/
def epollDel (id : HttpId) : EventLoop :=
  let fd := s.fdOf id
  { s with
    interest := Function.update s.interest fd none
    fd2channel := Function.update s.fd2channel fd none
    fd2http := Function.update s.fd2http fd none
    dels := s.dels ++ [if (s.fd2channel fd).isSome then 1 else 0] }

/--
The loop over `returned_fd_events_` in `Epoll::EpollWait`: the map it leaves and the channels it
returns. `fd2channel_[fd]` creates an entry for a key that is absent.
-/
def epollWait (map : Fd → Option (Option ChannelRef)) :
    List (Fd × EventMask) → (Fd → Option (Option ChannelRef)) × List Active
  | [] => (map, [])
  | (fd, events) :: returned =>
    match map fd with
    | none => epollWait (Function.update map fd (some none)) returned
    | some none => epollWait map returned
    | some (some channel) =>
      let (map, active) := epollWait map returned
      (map, (channel, events) :: active)

/-! ## Http -/

/-- `Http::seperateTimer` -/
def seperateTimer (id : HttpId) : EventLoop :=
  match s.timer id with
  | some k =>
    if s.timerManager.locks k then { s with
      timerManager := s.timerManager.clear k
      timer := Function.update s.timer id none }
    else s
  | none => s

/-- `Http::HandleClose` -/
def handleClose (id : HttpId) : EventLoop :=
  let h : Http := { s.http id with connectionState := .disconnected }
  { s with
    http := Function.update s.http id h
    closes := Function.update s.closes id (s.closes id + 1) }.epollDel id

/-- `Http::Init` -/
def init (id : HttpId) : EventLoop :=
  let s := s.recordArming id DEFAULT_EXPIRE_TIME
  let h : Http := { s.http id with toListenEvents := EventMask.inEt }
  { s with http := Function.update s.http id h }.epollAdd (.http id) (s.fdOf id) h.toListenEvents
    DEFAULT_EXPIRE_TIME

/-- What a callback's call does to the loop. `RemoveFromEpoller` is only called by `HandleClose`. -/
def perform (id : HttpId) : Effect → EventLoop
  | .seperateTimer => s.seperateTimer id
  | .updateEpoller events timeout => s.epollModify id events timeout
  | .removeFromEpoller => s.handleClose id
  | _ => s

/-! ## EventLoop -/

/-- `EventLoop::EventLoop` -/
def construct (wakeupFd : Fd) (now : Nat) : EventLoop :=
  ({ fd2channel := fun _ => none
     fd2http := fun _ => none
     interest := fun _ => none
     timerManager := TimerManager.empty
     callbackList := []
     timeoutCount := 0
     phase := .polling
     now := now
     accepted := 0
     fdOf := fun _ => 0
     http := fun _ => Http.construct true
     timer := fun _ => none
     armed := fun _ => none
     adds := []
     dels := []
     closes := fun _ => 0 } : EventLoop).epollAdd .wakeup wakeupFd EventMask.inEt 0

/-- The loop in another phase. -/
def enter (p : LoopPhase) : EventLoop := { s with phase := p }

/-- `Server::HandleNewConn` for one accepted descriptor: `Init` is queued on this loop. -/
def accept (fd : Fd) : EventLoop :=
  { s with
    accepted := s.accepted + 1
    fdOf := Function.update s.fdOf s.accepted fd
    http := Function.update s.http s.accepted (Http.construct true)
    timer := Function.update s.timer s.accepted none
    callbackList := s.callbackList ++ [s.accepted] }

/-- `EpollWait` returns. -/
def wait (returned : List (Fd × EventMask)) : EventLoop :=
  let (map, active) := epollWait s.fd2channel returned
  { s with
    fd2channel := map
    timeoutCount := if active.length = 0 then s.timeoutCount + 1 else s.timeoutCount
    phase := .dispatching active }

/-- `HandleEvents` is called on the channel of a connection. -/
def begin (id : HttpId) (d : Dispatch) (active : List Active) : EventLoop :=
  let c := d.run (s.http id)
  { s with
    http := Function.update s.http id c.http
    phase := .handling ⟨id, d, s.http id, c.trace, active⟩ }

/-- One turn of `HandleExpire`: the top is popped and destroyed. -/
def expire (n : TimerNode) : EventLoop :=
  let s := { s with timerManager := s.timerManager.pop n }
  match n.data with
  | some id => s.handleClose id
  | none => s

theorem expire_phase (n : TimerNode) : (s.expire n).phase = s.phase := by
  unfold expire
  cases n.data <;> rfl

end EventLoop

/-! ## Steps -/

/-- What happens in a step. -/
inductive LoopStep where
  | accept (fd : Fd)
  | tick (ms : Nat)
  | wait (returned : List (Fd × EventMask))
  | wakeup
  | begin (d : Dispatch)
  | effect
  | handled
  | swap
  | callback
  | ran
  | expire (n : TimerNode)
  | rest

open EventLoop in
/-- The steps of the loop whose eventfd is `wakeupFd`. -/
inductive Steps (wakeupFd : Fd) : EventLoop → LoopStep → EventLoop → Prop where
  /-- `accept()` returns a descriptor that is not open -/
  | accept {s : EventLoop} (fd : Fd) : fd ≠ wakeupFd → (∀ id, s.Owned id → s.fdOf id ≠ fd) →
      Steps wakeupFd s (.accept fd) (s.accept fd)
  | tick {s : EventLoop} (ms : Nat) : Steps wakeupFd s (.tick ms) { s with now := s.now + ms }
  /-- the kernel reports what the registered descriptors asked for -/
  | wait {s : EventLoop} (returned : List (Fd × EventMask)) : s.phase = .polling →
      s.timeoutCount < 5 → (returned.map Prod.fst).Nodup →
      (∀ r ∈ returned, ∃ mask, s.interest r.1 = some mask ∧ mask.Reportable r.2) →
      Steps wakeupFd s (.wait returned) (s.wait returned)
  /-- the channel of the eventfd has no callbacks -/
  | wakeup {s : EventLoop} {events : EventMask} {active : List Active} :
      s.phase = .dispatching ((.wakeup, events) :: active) →
      Steps wakeupFd s .wakeup (s.enter (.dispatching active))
  | begin {s : EventLoop} {id : HttpId} {active : List Active} (d : Dispatch) :
      s.phase = .dispatching ((.http id, d.active) :: active) →
      Steps wakeupFd s (.begin d) (s.begin id d active)
  | effect {s : EventLoop} {h : Handling} {e : Effect} {todo : List Effect} :
      s.phase = .handling h → h.todo = e :: todo →
      Steps wakeupFd s .effect ((s.perform h.id e).enter (.handling { h with todo := todo }))
  | handled {s : EventLoop} {h : Handling} : s.phase = .handling h → h.todo = [] →
      Steps wakeupFd s .handled (s.enter (.dispatching h.active))
  /-- `to_copy_list.swap(callback_list_)` -/
  | swap {s : EventLoop} : s.phase = .dispatching [] →
      Steps wakeupFd s .swap { s with callbackList := [], phase := .running s.callbackList }
  | callback {s : EventLoop} {id : HttpId} {batch : List HttpId} :
      s.phase = .running (id :: batch) →
      Steps wakeupFd s .callback ((s.init id).enter (.running batch))
  | ran {s : EventLoop} : s.phase = .running [] → Steps wakeupFd s .ran (s.enter .expiring)
  | expire {s : EventLoop} (n : TimerNode) : s.phase = .expiring → s.timerManager.IsTop n →
      n.isOver s.now = true → Steps wakeupFd s (.expire n) (s.expire n)
  /-- the queue is empty or its top is still running -/
  | rest {s : EventLoop} : s.phase = .expiring →
      (s.timerManager.timerNodeQueue = [] ∨
        ∃ n, s.timerManager.IsTop n ∧ n.isOver s.now = false) →
      Steps wakeupFd s .rest (s.enter .polling)

/-- The runs of a loop. -/
def loops (wakeupFd : Fd) : System EventLoop LoopStep where
  init s := ∃ now, s = EventLoop.construct wakeupFd now
  step := Steps wakeupFd

/-- A step that begins an event begins one that meets `ok`. -/
def EventLoop.Begins (ok : Dispatch → Http → Prop) (s : EventLoop) (a : LoopStep)
    (_ : EventLoop) : Prop :=
  ∀ id active d, s.phase = .dispatching ((.http id, d.active) :: active) → a = .begin d →
    ok d (s.http id)

/-! ## A small run -/

/-- A loop with eventfd 3 that has run `Init` of one connection, on descriptor 5. -/
def EventLoop.serving : EventLoop :=
  let s := ((EventLoop.construct 3 0).accept 5).wait []
  let s := ({ s with callbackList := [], phase := .running s.callbackList }).init 0
  ((s.enter (.running [])).enter .expiring).enter .polling

theorem EventLoop.serving_reachable_only (ok : Dispatch → Http → Prop) :
    ((loops 3).only (EventLoop.Begins ok)).Reachable EventLoop.serving := by
  have h0 : ((loops 3).only (EventLoop.Begins ok)).Reachable (EventLoop.construct 3 0) :=
    .init ⟨0, rfl⟩
  have h1 := h0.step ⟨Steps.accept 5 (by decide) fun id hid => by
    rcases hid with hr | ⟨n, hn, -⟩ | hp
    · exact nomatch (show (none : Option (Option HttpId)) = some (some id) from hr)
    · exact nomatch hn
    · exact (nomatch hp), fun _ _ _ _ ha => (nomatch ha)⟩
  have h2 := h1.step ⟨Steps.wait [] rfl (by decide) List.nodup_nil fun r hr => (nomatch hr),
    fun _ _ _ _ ha => (nomatch ha)⟩
  have h3 := h2.step ⟨Steps.swap rfl, fun _ _ _ _ ha => (nomatch ha)⟩
  have h4 := h3.step ⟨Steps.callback rfl, fun _ _ _ _ ha => (nomatch ha)⟩
  have h5 := h4.step ⟨Steps.ran rfl, fun _ _ _ _ ha => (nomatch ha)⟩
  exact h5.step ⟨Steps.rest rfl
    (Or.inr ⟨TimerNode.construct 0 0 3000 0, by decide, by decide⟩),
    fun _ _ _ _ ha => (nomatch ha)⟩

theorem EventLoop.serving_reachable : (loops 3).Reachable EventLoop.serving :=
  (EventLoop.serving_reachable_only fun _ _ => True).of_only

/-- `epoll_wait` reports an event on its connection. -/
theorem EventLoop.serving_wait {active : EventMask} (h : EventMask.inEt.Reportable active) :
    Steps 3 EventLoop.serving (.wait [(5, active)]) (EventLoop.serving.wait [(5, active)]) :=
  Steps.wait _ rfl (by decide) (List.nodup_singleton _) fun r hr => by
    obtain rfl := List.mem_singleton.mp hr
    exact ⟨EventMask.inEt, rfl, h⟩

/-- The timer of that connection. -/
def EventLoop.servingNode : TimerNode := TimerNode.construct 0 0 DEFAULT_EXPIRE_TIME 0

/-- Nothing happens to it for three seconds. -/
def EventLoop.timedOut : EventLoop :=
  let s := EventLoop.serving.wait []
  let s : EventLoop := { s with callbackList := [], phase := .running s.callbackList }
  let s := s.enter .expiring
  { s with now := s.now + 3000 }

theorem EventLoop.timedOut_reachable : (loops 3).Reachable EventLoop.timedOut := by
  have h1 := EventLoop.serving_reachable.step
    (Steps.wait [] rfl (by decide) List.nodup_nil fun r hr => nomatch hr)
  have h2 := h1.step (Steps.swap rfl)
  have h3 := h2.step (Steps.ran rfl)
  exact h3.step (Steps.tick 3000)

theorem EventLoop.timedOut_expire :
    Steps 3 EventLoop.timedOut (.expire EventLoop.servingNode)
      (EventLoop.timedOut.expire EventLoop.servingNode) :=
  Steps.expire _ rfl (by decide) (by decide)

end FlashWeb
