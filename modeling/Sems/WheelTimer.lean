import Sems.IntrusiveList

/-!
# The timer wheel

`_wheeltimer` (`core/sip/wheeltimer.cpp`) keeps its timers in `WHEELS` rows of
`ELMTS_PER_WHEEL` intrusive lists. The row of a timer is the highest byte in which its
`expires` differs from the wall clock, its place in the row that byte of `expires`. Each
tick of the clock cascades lists into the rows below (`updateWheel`), works through the queued
requests, and fires the timers of the current list of row 0.

A tick takes the backlog of requests once, so a run is a sequence of requests and ticks (`run`). The
`expires` of a timer is never written after it is created.
-/

set_option linter.unusedSectionVars false

namespace Sems

def BITS_PER_WHEEL : ℕ := 8

def WHEELS : ℕ := 4

/-- `t1 < t2` on the clock's circle. -/
def lessTs (t1 t2 : BitVec 32) : Bool :=
  (1#32 <<< 31).ult (t1 - t2)

/-- The byte of `x` that selects the list of row `wheel`. -/
def wheelPos (x : BitVec 32) (wheel : ℕ) : ℕ :=
  ((x >>> (wheel * BITS_PER_WHEEL)) &&& 255#32).toNat

/-- A queued request : insert `t`, or remove it. -/
structure TimerReq (T : Type*) where
  t : T
  insert : Bool

/-- State of the wheel. `placed`, which the source does not have, counts the insert requests
processed and bounds the pointer walks. -/
structure Wheeltimer (T : Type*) where
  wheels : Links (ℕ × ℕ) T
  wallClock : BitVec 32
  reqsBacklog : List (TimerReq T)
  placed : ℕ

namespace Wheeltimer

variable {T : Type*} [DecidableEq T] (expires : T → BitVec 32)

/-- State after construction. -/
def init : Wheeltimer T where
  wheels := Links.empty
  wallClock := 0
  reqsBacklog := []
  placed := 0

variable (w : Wheeltimer T)

def insertTimer (t : T) : Wheeltimer T :=
  { w with reqsBacklog := w.reqsBacklog ++ [⟨t, true⟩] }

def removeTimer (t : T) : Wheeltimer T :=
  { w with reqsBacklog := w.reqsBacklog ++ [⟨t, false⟩] }

def addTimerToWheel (t : T) (wheel pos : ℕ) : Wheeltimer T :=
  { w with wheels := w.wheels.pushFront t (wheel, pos) }

/-- `place_timer(t, wheel)` : search the row from `wheel` down. -/
def placeTimerFrom (w : Wheeltimer T) (t : T) : ℕ → Wheeltimer T
  | 0 => w.addTimerToWheel t 0 (wheelPos (expires t) 0)
  | wheel + 1 =>
    if wheelPos (expires t ^^^ w.wallClock) (wheel + 1) ≠ 0 then
      w.addTimerToWheel t (wheel + 1) (wheelPos (expires t) (wheel + 1))
    else placeTimerFrom w t wheel

/-- `place_timer(t)` : a late timer goes to the current list. -/
def placeTimer (t : T) : Wheeltimer T :=
  if lessTs (expires t) w.wallClock then w.addTimerToWheel t 0 (wheelPos w.wallClock 0)
  else placeTimerFrom expires w t (WHEELS - 1)

/-- Take `t` out of its list and delete it. -/
def deleteTimer (t : T) : Wheeltimer T :=
  { w with wheels := w.wheels.unlink t }

/-- Cascade the current list of row `wheel`. A row that does not exist is skipped. -/
def updateRow (wheel : ℕ) : Wheeltimer T :=
  if wheel < WHEELS then
    let head := (wheel, wheelPos w.wallClock wheel)
    let w := Links.walk wheels (fun t w => placeTimerFrom expires w t (wheel - 1)) w.placed
      (w.wheels.next (.head head)) w
    { w with wheels := w.wheels.clear head }
  else w

/-- Cascade the rows from `wheel` down to 1. -/
def updateWheel (w : Wheeltimer T) : ℕ → Wheeltimer T
  | 0 => w
  | wheel + 1 => updateWheel (updateRow expires w (wheel + 1)) wheel

/-- The rows to cascade : the low bytes of the clock that are about to wrap, of the `k`
bytes from `mask` on. -/
def wheelToUpdate (clock : BitVec 32) : ℕ → BitVec 32 → ℕ
  | 0, _ => 0
  | k + 1, mask =>
    if (clock &&& mask) ^^^ mask ≠ 0 then 0
    else wheelToUpdate clock k (mask <<< BITS_PER_WHEEL) + 1

def processReq (rq : TimerReq T) : Wheeltimer T :=
  if rq.insert then { placeTimer expires w rq.t with placed := w.placed + 1 }
  else w.deleteTimer rq.t

/-- Reset the pointers of `t` and fire it. -/
def fireTimer (t : T) (r : Wheeltimer T × List T) : Wheeltimer T × List T :=
  ({ r.1 with wheels := r.1.wheels.detach t }, r.2 ++ [t])

/-- Fire the timers of the current list. The second part lists them, in order. -/
def processCurrentTimers : Wheeltimer T × List T :=
  let head := (0, wheelPos w.wallClock 0)
  let r := Links.walk (fun r => r.1.wheels) fireTimer w.placed (w.wheels.next (.head head)) (w, [])
  ({ r.1 with wheels := r.1.wheels.clear head }, r.2)

/-- One tick : the state after it and the timers it fires. -/
def turnWheel : Wheeltimer T × List T :=
  let i := wheelToUpdate w.wallClock WHEELS 255#32
  let w := { w with wallClock := w.wallClock + 1 }
  let w := updateWheel expires w i
  let reqs := w.reqsBacklog
  let w := reqs.foldl (processReq expires) { w with reqsBacklog := [] }
  w.processCurrentTimers

end Wheeltimer

/-! ## Runs -/

/-- What happens to a timer wheel. -/
inductive TimerEv (T : Type*) where
  | insertTimer (t : T)
  | removeTimer (t : T)
  | turnWheel

/-- What a tick does : the clock it sets and the timers it fires. -/
structure Tick (T : Type*) where
  clock : BitVec 32
  fired : List T

/-- Run the events, from `w`. One `Tick` for each tick of the run. -/
def Wheeltimer.run {T : Type*} [DecidableEq T] (expires : T → BitVec 32) :
    Wheeltimer T → List (TimerEv T) → List (Tick T)
  | _, [] => []
  | w, .insertTimer t :: evs => run expires (w.insertTimer t) evs
  | w, .removeTimer t :: evs => run expires (w.removeTimer t) evs
  | w, .turnWheel :: evs =>
    let r := turnWheel expires w
    ⟨r.1.wallClock, r.2⟩ :: run expires r.1 evs

namespace TimerEv

variable {T : Type*}

/-- The timers inserted, in order. -/
def inserts : List (TimerEv T) → List T
  | [] => []
  | .insertTimer t :: evs => t :: inserts evs
  | _ :: evs => inserts evs

/-- The timers removed, in order. -/
def removes : List (TimerEv T) → List T
  | [] => []
  | .removeTimer t :: evs => t :: removes evs
  | _ :: evs => removes evs

/-- The requests of a run, in order. -/
def requests : List (TimerEv T) → List (TimerReq T)
  | [] => []
  | .insertTimer t :: evs => ⟨t, true⟩ :: requests evs
  | .removeTimer t :: evs => ⟨t, false⟩ :: requests evs
  | .turnWheel :: evs => requests evs

/-- The number of ticks. -/
def ticks : List (TimerEv T) → ℕ
  | [] => 0
  | .turnWheel :: evs => ticks evs + 1
  | _ :: evs => ticks evs

/-- What the callers keep to : a timer object is inserted once, and removed (which deletes it) at
most once and not before it was inserted. -/
structure Legal (evs : List (TimerEv T)) : Prop where
  insert_once : (inserts evs).Nodup
  remove_once : (removes evs).Nodup
  remove_after : ∀ pre t post, evs = pre ++ .removeTimer t :: post → t ∈ inserts pre

end TimerEv

end Sems
