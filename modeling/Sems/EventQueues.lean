import Sems.Rel100
import Sems.Runs

/-!
# Event queues and their workers

`AmEventQueue` (`core/AmEventQueue.cpp`), the workers of `AmEventQueueProcessor`
(`core/AmEventQueueProcessor.cpp`) and the processing cycles of a session (`core/AmSession.cpp`) and
of a relay (`apps/sbc/SBCSimpleRelay.cpp`).

A step is one critical section. Posting holds the mutex of the queue while it notifies the worker,
so it is one step. A worker is at one of the places of its loop (`WorkerPc`) between its steps, and
what the handler does there is an input of the step (`WorkInput`).
-/

namespace Sems

/-- `ProcessingStatus` of a session. -/
inductive ProcessingStatus where
  | SESSION_PROCESSING_EVENTS
  | SESSION_WAITING_DISCONNECTED
  | SESSION_ENDED_DISCONNECTED
  deriving DecidableEq

/-- What a session finds after it has processed its events. -/
structure SessionView where
  sStopped : Bool
  dlgStatus : DlgStatus
  usages : Bool
  byeFails : Bool

/-- Whose queue it is : that of a session, of a relay, or a plain one. -/
inductive QueueKind where
  | plain
  | session (status : ProcessingStatus)
  | relay

/-- What the handler and the dialog do in a step of a worker. -/
structure WorkInput where
  throws : Bool
  view : SessionView
  terminated : Bool

/-- How far a queue is. `finished` is a queue whose processing cycle has returned `false`. -/
inductive QueueStage (W : Type*) where
  | new
  | starting (w : W)
  | refused (w : W)
  | registered (w : W)
  | finished (w : W)

/-- An event queue. The events posted and those handed to the handler are kept in the order they
came. -/
structure EventQueue (W E : Type*) where
  evQueue : List E
  evPending : Bool
  wakeupHandler : Option W
  finalized : Bool
  kind : QueueKind
  stage : QueueStage W
  posted : List E
  handled : List E

/-- Where a worker is : it waits for its list, looks into it, or has taken a queue. It is then
before the cycle, before the next look into the queue, at an event, after the events, after an
exception or an ended cycle, before it takes itself off the queue, before `finalize`, or before it
releases the queue. -/
inductive WorkerPc (Q E : Type*) where
  | waiting
  | looking
  | cycle (q : Q)
  | draining (q : Q)
  | handling (q : Q) (ev : E)
  | drained (q : Q)
  | failed (q : Q)
  | dropping (q : Q)
  | finalizing (q : Q)
  | releasing (q : Q)

/-- `EventQueueWorker`, with its place in the loop. -/
structure QueueWorker (Q E : Type*) where
  processQueues : List Q
  runcond : Bool
  pc : WorkerPc Q E

/-- The queues and the workers. -/
structure EventSystem (Q W E : Type*) where
  queue : Q → EventQueue W E
  worker : W → QueueWorker Q E

/-- A post, the two ends of a startup, or a step of a worker. -/
inductive EventSystemEv (Q W E : Type*) where
  | post (q : Q) (event : Option E)
  | start (q : Q) (w : W)
  | startup (q : Q) (ok : Bool)
  | work (w : W) (input : WorkInput)

/-- The processing cycle of a session after its events : the new status, and whether to go on. -/
def sessionCycle (status : ProcessingStatus) (v : SessionView) : ProcessingStatus × Bool :=
  match status with
  | .SESSION_PROCESSING_EVENTS =>
    if v.sStopped = false ∨ v.dlgStatus = .Disconnecting ∨ v.usages = true then (status, true)
    else if v.sStopped = true ∧ v.dlgStatus = .Disconnected then
      (.SESSION_ENDED_DISCONNECTED, false)
    else if v.dlgStatus ≠ .Disconnected ∧ v.dlgStatus ≠ .Cancelling then
      -- app did not send BYE
      if v.byeFails then (.SESSION_ENDED_DISCONNECTED, false)
      else (.SESSION_WAITING_DISCONNECTED, true)
    else (.SESSION_WAITING_DISCONNECTED, true)
  | .SESSION_WAITING_DISCONNECTED =>
    if v.dlgStatus = .Disconnected then (.SESSION_ENDED_DISCONNECTED, false) else (status, true)
  | .SESSION_ENDED_DISCONNECTED => (status, false)

namespace QueueKind

/-- The end of a processing cycle : the handler after it, and whether to go on. -/
def cycle (kind : QueueKind) (input : WorkInput) : QueueKind × Bool :=
  match kind with
  | .plain => (.plain, true)
  | .session status =>
    let (status, goOn) := sessionCycle status input.view
    (.session status, goOn)
  | .relay => (.relay, !input.terminated)

/-- The handler after an exception, which ends a session and terminates a relay. -/
def abort : QueueKind → QueueKind
  | .session _ => .session .SESSION_ENDED_DISCONNECTED
  | kind => kind

/-- The processing cycle catches exceptions. -/
def catches : QueueKind → Bool
  | .plain => false
  | _ => true

/-- A session that has ended processes no events. -/
def ended : QueueKind → Bool
  | .session status => decide (status = .SESSION_ENDED_DISCONNECTED)
  | _ => false

/-- `finalize` marks the queue, except that of a session. -/
def marks : QueueKind → Bool
  | .session _ => false
  | _ => true

end QueueKind

namespace QueueStage

variable {W : Type*}

/-- The worker that the queue was registered with. -/
def worker : QueueStage W → Option W
  | .new => none
  | .starting _ => none
  | .refused _ => none
  | .registered w => some w
  | .finished w => some w

/-- The stage after a processing cycle that returned `false`. -/
def finish : QueueStage W → QueueStage W
  | .registered w => .finished w
  | s => s

end QueueStage

namespace WorkerPc

variable {Q E : Type*}

/-- The queue that is processed. -/
def queue : WorkerPc Q E → Option Q
  | .waiting => none
  | .looking => none
  | .cycle q => some q
  | .draining q => some q
  | .handling q _ => some q
  | .drained q => some q
  | .failed q => some q
  | .dropping q => some q
  | .finalizing q => some q
  | .releasing q => some q

end WorkerPc

namespace EventSystem

variable {Q W E : Type*} [DecidableEq Q] [DecidableEq W]

/-- Queues that are new and workers that wait. -/
def init (kind : Q → QueueKind) : EventSystem Q W E where
  queue := fun q => ⟨[], false, none, false, kind q, .new, [], []⟩
  worker := fun _ => ⟨[], false, .waiting⟩

variable (s : EventSystem Q W E)

/-- Replaces a queue. -/
def setQueue (q : Q) (x : EventQueue W E) : EventSystem Q W E :=
  { s with queue := Function.update s.queue q x }

/-- Replaces a worker. -/
def setWorker (w : W) (x : QueueWorker Q E) : EventSystem Q W E :=
  { s with worker := Function.update s.worker w x }

/-- Moves a worker to a place of its loop. -/
def setPc (w : W) (pc : WorkerPc Q E) : EventSystem Q W E :=
  s.setWorker w { s.worker w with pc := pc }

/-- Put the queue into the list of the worker and wake the worker up. -/
def notify (w : W) (q : Q) : EventSystem Q W E :=
  s.setWorker w
    { s.worker w with processQueues := (s.worker w).processQueues ++ [q], runcond := true }

/-- Notifies the worker of a queue, if it has one. -/
def notifySink (sink : Option W) (q : Q) : EventSystem Q W E :=
  match sink with
  | some w => s.notify w q
  | none => s

/-- `postEvent`. -/
def postEvent (q : Q) (event : Option E) : EventSystem Q W E :=
  let x := s.queue q
  let x' := { x with evQueue := x.evQueue ++ event.toList, posted := x.posted ++ event.toList }
  if x.evPending then s.setQueue q x'
  else (s.setQueue q { x' with evPending := true }).notifySink x.wakeupHandler q

/-- `setEventNotificationSink`. -/
def setEventNotificationSink (q : Q) (sink : Option W) : EventSystem Q W E :=
  let x := s.queue q
  let s := s.setQueue q { x with wakeupHandler := sink }
  if x.evPending then s.notifySink sink q else s

/-- The end of `startup` : a queue that has started is registered with its worker. -/
def startup (q : Q) (ok : Bool) : EventSystem Q W E :=
  match (s.queue q).stage with
  | .starting w =>
    if ok then
      (s.setQueue q { s.queue q with stage := .registered w }).setEventNotificationSink q (some w)
    else s.setQueue q { s.queue q with stage := .refused w }
  | _ => s

/-- One step of a worker. -/
def work (w : W) (input : WorkInput) : EventSystem Q W E :=
  match (s.worker w).pc with
  | .waiting => if (s.worker w).runcond then s.setPc w .looking else s
  | .looking =>
    match (s.worker w).processQueues with
    | [] => s.setWorker w { s.worker w with runcond := false, pc := .waiting }
    | q :: rest => s.setWorker w { s.worker w with processQueues := rest, pc := .cycle q }
  | .cycle q => if (s.queue q).kind.ended then s.setPc w (.failed q) else s.setPc w (.draining q)
  | .draining q =>
    match (s.queue q).evQueue with
    | [] => (s.setQueue q { s.queue q with evPending := false }).setPc w (.drained q)
    | ev :: rest => (s.setQueue q { s.queue q with evQueue := rest }).setPc w (.handling q ev)
  | .handling q ev =>
    let x := { s.queue q with handled := (s.queue q).handled ++ [ev] }
    if x.kind.catches && input.throws then (s.setQueue q x).setPc w (.failed q)
    else (s.setQueue q x).setPc w (.draining q)
  | .drained q =>
    let x := { s.queue q with kind := ((s.queue q).kind.cycle input).1 }
    if ((s.queue q).kind.cycle input).2 then (s.setQueue q x).setPc w (.releasing q)
    else (s.setQueue q { x with stage := x.stage.finish }).setPc w (.dropping q)
  | .failed q =>
    let x := { s.queue q with kind := (s.queue q).kind.abort }
    (s.setQueue q { x with stage := x.stage.finish }).setPc w (.dropping q)
  | .dropping q => (s.setEventNotificationSink q none).setPc w (.finalizing q)
  | .finalizing q =>
    let x := s.queue q
    (s.setQueue q { x with finalized := x.finalized || x.kind.marks }).setPc w (.releasing q)
  | .releasing _ => s.setPc w .looking

/-- One critical section. -/
def step : EventSystemEv Q W E → EventSystem Q W E
  | .post q event => s.postEvent q event
  | .start q w =>
    match (s.queue q).stage with
    | .new => s.setQueue q { s.queue q with stage := .starting w }
    | _ => s
  | .startup q ok => s.startup q ok
  | .work w input => s.work w input

end EventSystem

end Sems
