import Sems.OrdMap
import Sems.Runs
import Sems.WheelTimer

/-!
# Application timers

`_AmAppTimer` (`core/AmAppTimer.cpp`) is a timer wheel with two maps over it : the timers of an
event queue, by queue and id, which post an event when they fire, and direct timers, which call a
handler. A call takes a timer out of its map and queues a request at the wheel, and the callback of
a timer looks whether it is still the one that was set. A timer object is deleted by its callback,
or by the wheel.

A step is one critical section. A call that holds the mutex of a map queues its requests one by one
(`TimerTrack.reqs`), and the wheel may take the queue in between. A tick of the wheel takes the
timers of the current list (`TimerTrack.firing`), and their callbacks come one by one.
-/

namespace Sems

/-- Whose timer it is : that of an event queue with its id, or a direct one. -/
inductive TimerKey (Q D : Type*) where
  | user (qId : Q) (timerId : ℤ)
  | direct (dt : D)
  deriving DecidableEq

/-- `user_timers_mut` and `direct_timers_mut`. -/
inductive TimerMutex where
  | user
  | direct
  deriving DecidableEq

/-- The mutex its timers are under. -/
def TimerKey.mutex {Q D : Type*} : TimerKey Q D → TimerMutex
  | .user _ _ => .user
  | .direct _ => .direct

/-- A timer object, `app_timer` or `direct_app_timer`. The serial number stands for its address, as
all objects that are compared are alive. -/
structure TimerObj (Q D : Type*) where
  key : TimerKey Q D
  expires : BitVec 32
  serial : ℕ
  deriving DecidableEq

/-- The timers to delete of some requests. -/
def removals {T : Type*} (rqs : List (TimerReq T)) : List T :=
  (rqs.filter fun rq => !rq.insert).map TimerReq.t

/-- What the threads have still to do : the requests the call that holds a mutex has yet to queue,
and the callbacks of the current tick that have yet to come. And what has happened : the timers
created, replaced or removed by a call, requested to be inserted (with the ticks before), fired, and
deleted, and the number of ticks. -/
structure TimerTrack (Q D : Type*) where
  reqs : TimerMutex → List (TimerReq (TimerObj Q D))
  firing : List (TimerObj Q D)
  created : List (TimerObj Q D)
  superseded : List (TimerObj Q D)
  requested : List (TimerObj Q D × ℕ)
  timeouts : List (TimerObj Q D)
  disposed : List (TimerObj Q D)
  turns : ℕ

namespace TimerTrack

variable {Q D : Type*}

/-- Nothing has happened. -/
def init : TimerTrack Q D :=
  ⟨fun _ => [], [], [], [], [], [], [], 0⟩

variable (tr : TimerTrack Q D)

/-- A request that is yet to be queued. -/
def push (rq : TimerReq (TimerObj Q D)) : TimerTrack Q D :=
  { tr with
    reqs := Function.update tr.reqs rq.t.key.mutex (tr.reqs rq.t.key.mutex ++ [rq]) }

/-- A call creates the timer and inserts it. -/
def create (t : TimerObj Q D) : TimerTrack Q D :=
  { tr.push ⟨t, true⟩ with created := tr.created ++ [t] }

/-- A call replaces or removes the timer. -/
def retire (t : TimerObj Q D) : TimerTrack Q D :=
  { tr.push ⟨t, false⟩ with superseded := tr.superseded ++ [t] }

/-- The request is queued, the first of those left at its mutex. -/
def request (m : TimerMutex) (rq : TimerReq (TimerObj Q D))
    (rest : List (TimerReq (TimerObj Q D))) : TimerTrack Q D :=
  { tr with
    reqs := Function.update tr.reqs m rest
    requested := tr.requested ++ if rq.insert then [(rq.t, tr.turns)] else [] }

/-- A tick : the timers it fires, and those it deletes. -/
def turn (fired deleted : List (TimerObj Q D)) : TimerTrack Q D :=
  { tr with
    firing := fired
    disposed := tr.disposed ++ deleted
    turns := tr.turns + 1 }

/-- The callback of the timer posts its event or calls its handler, and deletes the timer. -/
def timeout (t : TimerObj Q D) : TimerTrack Q D :=
  { tr with
    timeouts := tr.timeouts ++ [t]
    disposed := tr.disposed ++ [t] }

end TimerTrack

section Maps

variable {Q T : Type*} [LinearOrder Q] (m : OrdMap Q (OrdMap ℤ T))

/-- The timer of a queue with this id. -/
def userTimer (qId : Q) (id : ℤ) : Option T :=
  (m.find? qId).bind fun ts => ts.find? id

/-- Erase a timer. Its object, if there is one, is not deleted. -/
def eraseTimer (qId : Q) (id : ℤ) : OrdMap Q (OrdMap ℤ T) × Option T :=
  match m.find? qId with
  | none => (m, none)
  | some ts =>
    match ts.find? id with
    | none => (m, none)
    | some t =>
      (if (ts.erase id).entries = [] then m.erase qId else m.insert qId (ts.erase id), some t)

/-- `user_timers[q_id][id] = t`. -/
def putTimer (qId : Q) (id : ℤ) (t : T) : OrdMap Q (OrdMap ℤ T) :=
  m.insert qId (((m.find? qId).getD OrdMap.empty).insert id t)

end Maps

/-- The timers that are set, and the wheel. -/
structure AppTimer (Q D : Type*) [LinearOrder Q] [LinearOrder D] where
  userTimers : OrdMap Q (OrdMap ℤ (TimerObj Q D))
  directTimers : OrdMap D (TimerObj Q D)
  wheel : Wheeltimer (TimerObj Q D)
  track : TimerTrack Q D

/-- What the handler of a direct timer does with direct timers. -/
inductive DirectCall (D : Type*) where
  | setTimer (dt : D) (expires : BitVec 32)
  | removeTimer (dt : D)

/-- A call that takes the mutex of a map, a request that is queued, a tick, or the next callback of
the tick. -/
inductive AppTimerEv (Q D : Type*) where
  | setTimer (qId : Q) (id : ℤ) (expires : BitVec 32)
  | removeTimer (qId : Q) (id : ℤ)
  | removeTimers (qId : Q)
  | direct (call : DirectCall D)
  | request (m : TimerMutex)
  | turnWheel
  | callback (calls : List (DirectCall D))

namespace AppTimer

variable {Q D : Type*} [LinearOrder Q] [LinearOrder D]

/-- No timer is set. -/
def init : AppTimer Q D :=
  ⟨OrdMap.empty, OrdMap.empty, .init, .init⟩

variable (s : AppTimer Q D)

/-- The timer that is set. -/
def current : TimerKey Q D → Option (TimerObj Q D)
  | .user qId id => userTimer s.userTimers qId id
  | .direct dt => s.directTimers.find? dt

/-- A new timer object. -/
def newTimer (key : TimerKey Q D) (expires : BitVec 32) : TimerObj Q D :=
  ⟨key, expires, s.track.created.length⟩

/-- An old timer with the id is replaced. -/
def setTimer (qId : Q) (id : ℤ) (expires : BitVec 32) : AppTimer Q D :=
  let (m, old) := eraseTimer s.userTimers qId id
  let t := s.newTimer (.user qId id) expires
  { s with
    userTimers := putTimer m qId id t
    track := (old.toList.foldl TimerTrack.retire s.track).create t }

/-- `removeTimer`. -/
def removeTimer (qId : Q) (id : ℤ) : AppTimer Q D :=
  let (m, old) := eraseTimer s.userTimers qId id
  { s with userTimers := m, track := old.toList.foldl TimerTrack.retire s.track }

/-- All timers of a queue are removed. -/
def removeTimers (qId : Q) : AppTimer Q D :=
  match s.userTimers.find? qId with
  | none => s
  | some ts =>
    { s with
      userTimers := s.userTimers.erase qId
      track := (ts.entries.map Prod.snd).foldl TimerTrack.retire s.track }

/-- `setTimer_unsafe`. -/
def setTimerUnsafe (dt : D) (expires : BitVec 32) : AppTimer Q D :=
  let t := s.newTimer (.direct dt) expires
  { s with
    directTimers := s.directTimers.insert dt t
    track := ((s.directTimers.find? dt).toList.foldl TimerTrack.retire s.track).create t }

/-- `removeTimer_unsafe`. -/
def removeTimerUnsafe (dt : D) : AppTimer Q D :=
  match s.directTimers.find? dt with
  | none => s
  | some t => { s with directTimers := s.directTimers.erase dt, track := s.track.retire t }

/-- A call for a direct timer. -/
def directCall : DirectCall D → AppTimer Q D
  | .setTimer dt expires => s.setTimerUnsafe dt expires
  | .removeTimer dt => s.removeTimerUnsafe dt

/-- Queue the next request of the call that holds the mutex. -/
def request (s : AppTimer Q D) (m : TimerMutex) : AppTimer Q D :=
  match s.track.reqs m with
  | [] => s
  | rq :: rest =>
    { s with
      wheel := if rq.insert then s.wheel.insertTimer rq.t else s.wheel.removeTimer rq.t
      track := s.track.request m rq rest }

/-- A tick of the wheel. -/
def turnWheel (s : AppTimer Q D) : AppTimer Q D :=
  let r := Wheeltimer.turnWheel TimerObj.expires s.wheel
  { s with wheel := r.1, track := s.track.turn r.2 (removals s.wheel.reqsBacklog) }

/-- `app_timer_cb`. -/
def appTimerCb (t : TimerObj Q D) (qId : Q) (id : ℤ) : AppTimer Q D :=
  let (m, local') := eraseTimer s.userTimers qId id
  match local' with
  | some t' =>
    -- the timer was reset while expiring
    if t' ≠ t then { s with userTimers := putTimer m qId id t' }
    else { s with userTimers := m, track := s.track.timeout t }
  | none => { s with userTimers := m }

/-- The handler of a direct timer is called with the mutex held. -/
def directAppTimerCb (t : TimerObj Q D) (dt : D) (calls : List (DirectCall D)) : AppTimer Q D :=
  match s.directTimers.find? dt with
  | none => s
  | some t' =>
    if t' ≠ t then s
    else
      calls.foldl directCall
        { s with directTimers := s.directTimers.erase dt, track := s.track.timeout t }

/-- The next callback of the tick. -/
def callback (calls : List (DirectCall D)) : AppTimer Q D :=
  match s.track.firing with
  | [] => s
  | t :: rest =>
    if s.track.reqs t.key.mutex ≠ [] then s
    else
      let s := { s with track := { s.track with firing := rest } }
      match t.key with
      | .user qId id => s.appTimerCb t qId id
      | .direct dt => s.directAppTimerCb t dt calls

/-- One step. A thread that finds a mutex taken, and a wheel whose callbacks are not done, wait. -/
def step : AppTimerEv Q D → AppTimer Q D
  | .setTimer qId id expires => if s.track.reqs .user = [] then s.setTimer qId id expires else s
  | .removeTimer qId id => if s.track.reqs .user = [] then s.removeTimer qId id else s
  | .removeTimers qId => if s.track.reqs .user = [] then s.removeTimers qId else s
  | .direct call => if s.track.reqs .direct = [] then s.directCall call else s
  | .request m => s.request m
  | .turnWheel => if s.track.firing = [] then s.turnWheel else s
  | .callback calls => s.callback calls

end AppTimer

end Sems
