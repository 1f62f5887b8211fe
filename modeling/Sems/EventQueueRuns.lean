import Sems.EventQueues

/-!
# No lost wake-ups and no event twice

`Inv` is the invariant of the queues and their workers. It speaks of one queue (`QueueOk`), of one
worker (`WorkerOk`), and of a queue and a worker (`Link`). A step changes a queue, a worker or one
of each, so the rest is a matter of frames (`Link.of_ne`, `Link.frame`).

`eventQueues_runs` says of every interleaving that no wake-up is lost, and that the events handed to
the handler are the first of the events posted. No queue has two workers, and the events posted are
those of the posts in the run (`oneWorker_runs`).
-/

set_option linter.unusedSectionVars false

namespace Sems

open List Function Option

/-! ## A queue and a worker -/

namespace WorkerPc

variable {Q E : Type*}

/-- The worker will look into the queue again, or end it. -/
def Busy (q : Q) : WorkerPc Q E → Prop
  | .cycle q' => q' = q
  | .draining q' => q' = q
  | .handling q' _ => q' = q
  | .failed q' => q' = q
  | .dropping q' => q' = q
  | _ => False

theorem busy_queue {pc : WorkerPc Q E} {q : Q} (h : pc.Busy q) : pc.queue = some q := by
  cases pc with
  | cycle q' | draining q' | handling q' ev | failed q' | dropping q' => exact congrArg some h
  | waiting | looking | drained q' | finalizing q' | releasing q' => exact absurd h id

variable [DecidableEq Q]

/-- The event of the queue that is on its way to the handler. -/
def event (q : Q) : WorkerPc Q E → List E
  | .handling q' ev => if q' = q then [ev] else []
  | _ => []

theorem event_eq_nil {pc : WorkerPc Q E} {q : Q} (h : pc.queue ≠ some q) : pc.event q = [] := by
  cases pc with
  | handling q' ev => exact if_neg fun hq => h (congrArg some hq)
  | _ => rfl

end WorkerPc

open WorkerPc

namespace EventSystem

variable {Q W E : Type*} [DecidableEq Q] [DecidableEq W]

/-- The queue will be looked into again by the worker, or is ended. -/
def Scheduled (y : QueueWorker Q E) (q : Q) : Prop :=
  q ∈ y.processQueues ∨ y.pc.Busy q

/-- A queue without pending events is empty, and one that has no worker is untouched. -/
structure QueueOk (x : EventQueue W E) : Prop where
  empty : x.evPending = false → x.evQueue = []
  untouched : x.stage.worker = none → x.handled = [] ∧ x.evQueue = x.posted

/-- A worker with a list is awake. -/
def WorkerOk (y : QueueWorker Q E) : Prop :=
  y.processQueues ≠ [] → y.runcond = true

/-- Only the worker of a queue has it in its list or works on it, and the worker that is notified is
scheduled for the queue as long as events are pending. -/
structure Link (q : Q) (x : EventQueue W E) (w : W) (y : QueueWorker Q E) : Prop where
  scheduled : x.wakeupHandler = some w → x.evPending = true → Scheduled y q
  sink : x.wakeupHandler = some w → x.stage.worker = some w
  listed : q ∈ y.processQueues → x.stage.worker = some w
  working : y.pc.queue = some q → x.stage.worker = some w
  registered : x.stage = .registered w → x.wakeupHandler = some w
  dropped : y.pc = .dropping q → x.stage ≠ .registered w
  ordered : x.stage.worker = some w → x.handled ++ y.pc.event q ++ x.evQueue = x.posted

structure Inv (s : EventSystem Q W E) : Prop where
  queueOk : ∀ q, QueueOk (s.queue q)
  workerOk : ∀ w, WorkerOk (s.worker w)
  link : ∀ q w, Link q (s.queue q) w (s.worker w)

variable {s : EventSystem Q W E} {q q' : Q} {w w' : W} {x x' : EventQueue W E}
  {y y' : QueueWorker Q E}

/-- A worker that is not the worker of the queue. -/
theorem Link.of_ne (h : Link q x w y) (hw : x.stage.worker ≠ some w)
    (hw' : x'.stage.worker ≠ some w) (hsink : x'.wakeupHandler ≠ some w) : Link q x' w y where
  scheduled := fun hs => absurd hs hsink
  sink := fun hs => absurd hs hsink
  listed := fun hq => absurd (h.listed hq) hw
  working := fun hq => absurd (h.working hq) hw
  registered := fun hs => absurd (by rw [hs]; rfl) hw'
  dropped := fun hpc => absurd (h.working (by rw [hpc]; rfl)) hw
  ordered := fun hs => absurd hs hw'

/-- A worker that changes with another queue. -/
theorem Link.frame (h : Link q x w y) (hlist : q ∈ y'.processQueues ↔ q ∈ y.processQueues)
    (hpc : y'.pc = y.pc ∨ y.pc.queue ≠ some q ∧ y'.pc.queue ≠ some q) : Link q x w y' := by
  have hbusy : y.pc.Busy q → y'.pc.Busy q := by
    intro hb
    rcases hpc with hpc | ⟨hpc, -⟩
    · rwa [hpc]
    · exact absurd (busy_queue hb) hpc
  have hqueue : y'.pc.queue = some q → y.pc.queue = some q := by
    intro hq
    rcases hpc with hpc | ⟨-, hpc⟩
    · rwa [← hpc]
    · exact absurd hq hpc
  have hevent : y'.pc.event q = y.pc.event q := by
    rcases hpc with hpc | ⟨hpc, hpc'⟩
    · rw [hpc]
    · rw [event_eq_nil hpc, event_eq_nil hpc']
  exact
    { h with
      scheduled := fun hs hp => (h.scheduled hs hp).imp hlist.2 hbusy
      listed := fun hq => h.listed (hlist.1 hq)
      working := fun hq => h.working (hqueue hq)
      dropped := fun hd => by
        rcases hpc with hpc | ⟨-, hpc⟩
        · exact h.dropped (hpc ▸ hd)
        · exact absurd (by rw [hd]; rfl) hpc
      ordered := fun hs => by
        rw [hevent]
        exact h.ordered hs }

theorem Inv.setQueue (h : Inv s) (hx : QueueOk x') (hlink : ∀ w, Link q x' w (s.worker w)) :
    Inv (s.setQueue q x') where
  queueOk := (forall_update_iff _ fun _ => QueueOk).2 ⟨hx, fun q' _ => h.queueOk q'⟩
  workerOk := h.workerOk
  link := (forall_update_iff _ fun q x => ∀ w, Link q x w (s.worker w)).2
    ⟨hlink, fun q' _ => h.link q'⟩

theorem Inv.setWorker (h : Inv s) (hy : WorkerOk y') (hlink : ∀ q, Link q (s.queue q) w y') :
    Inv (s.setWorker w y') where
  queueOk := h.queueOk
  workerOk := (forall_update_iff _ fun _ => WorkerOk).2 ⟨hy, fun w' _ => h.workerOk w'⟩
  link := fun q => (forall_update_iff _ fun w y => Link q (s.queue q) w y).2
    ⟨hlink q, fun w' _ => h.link q w'⟩

/-- A queue changes together with a worker. -/
theorem Inv.setBoth (h : Inv s) (hx : QueueOk x') (hy : WorkerOk y') (hlink : Link q x' w y')
    (hother : ∀ w', w' ≠ w → Link q x' w' (s.worker w'))
    (hframe : ∀ q', q' ≠ q → Link q' (s.queue q') w y') :
    Inv ((s.setQueue q x').setWorker w y') where
  queueOk := (forall_update_iff _ fun _ => QueueOk).2 ⟨hx, fun q' _ => h.queueOk q'⟩
  workerOk := (forall_update_iff _ fun _ => WorkerOk).2 ⟨hy, fun w' _ => h.workerOk w'⟩
  link := by
    refine (forall_update_iff _ fun q x =>
      ∀ w', Link q x w' (Function.update s.worker w y' w')).2 ⟨?_, fun q' hq => ?_⟩
    · exact (forall_update_iff _ fun w y => Link q x' w y).2 ⟨hlink, hother⟩
    · exact (forall_update_iff _ fun w y => Link q' (s.queue q') w y).2
        ⟨hframe q' hq, fun w' _ => h.link q' w'⟩

/-! ## Posting and starting -/

/-- The worker of the queue. -/
theorem Link.of_worker (hw : x.stage.worker = some w)
    (hscheduled : x.wakeupHandler = some w → x.evPending = true → Scheduled y q)
    (hregistered : x.stage = .registered w → x.wakeupHandler = some w)
    (hdropped : y.pc = .dropping q → x.stage ≠ .registered w)
    (hordered : x.handled ++ y.pc.event q ++ x.evQueue = x.posted) : Link q x w y where
  scheduled := hscheduled
  sink := fun _ => hw
  listed := fun _ => hw
  working := fun _ => hw
  registered := hregistered
  dropped := hdropped
  ordered := fun _ => hordered

/-- The worker of the queue is notified. -/
theorem Inv.notify (h : Inv s) (hx : QueueOk x') (hw' : x'.stage.worker = some w)
    (hsink : x'.wakeupHandler = some w) (hw : ∀ w', w' ≠ w → (s.queue q).stage.worker ≠ some w')
    (hdropped : (s.worker w).pc = .dropping q → x'.stage ≠ .registered w)
    (hordered : x'.handled ++ (s.worker w).pc.event q ++ x'.evQueue = x'.posted) :
    Inv ((s.setQueue q x').notify w q) := by
  refine h.setBoth hx (fun _ => rfl) ?_ (fun w' hne => ?_) fun q' hq => ?_
  · exact Link.of_worker hw' (fun _ _ => .inl (by simp)) (fun _ => hsink) hdropped hordered
  · have hne' : some w ≠ some w' := fun he => hne (some.inj he).symm
    exact (h.link q w').of_ne (hw w' hne) (hw' ▸ hne') (hsink ▸ hne')
  · refine (h.link q' w).frame ?_ (.inl rfl)
    show q' ∈ (s.worker w).processQueues ++ [q] ↔ q' ∈ (s.worker w).processQueues
    simp [hq]

/-- More events, while the worker needs no notification. -/
theorem Link.append (h : Link q x w y) (evs : List E)
    (hpending : x.evPending = true ∨ x.wakeupHandler ≠ some w) :
    Link q { x with evQueue := x.evQueue ++ evs, posted := x.posted ++ evs, evPending := true }
      w y :=
  { h with
    scheduled := fun hs _ => h.scheduled hs (hpending.resolve_right fun hne => hne hs)
    ordered := fun hs => by
      rw [← append_assoc, h.ordered hs] }

theorem QueueOk.append (h : QueueOk x) (evs : List E) :
    QueueOk { x with evQueue := x.evQueue ++ evs, posted := x.posted ++ evs
                     evPending := true } where
  empty := fun hp => absurd hp (by simp)
  untouched := fun hs => ⟨(h.untouched hs).1, congrArg (· ++ evs) (h.untouched hs).2⟩

theorem Inv.postEvent (h : Inv s) (q : Q) (event : Option E) : Inv (s.postEvent q event) := by
  have hx := (h.queueOk q).append event.toList
  dsimp only [EventSystem.postEvent]
  split_ifs with hp
  · have hlink := fun w => (h.link q w).append event.toList (.inl hp)
    rw [← hp] at hx hlink
    exact h.setQueue hx hlink
  · rcases hsink : (s.queue q).wakeupHandler with _ | w <;> rw [hsink] at hx
    · refine h.setQueue hx fun w => ?_
      rw [← hsink]
      exact (h.link q w).append event.toList (.inr (by rw [hsink]; simp))
    · have hw := (h.link q w).sink hsink
      refine h.notify hx hw rfl (fun w' hne => ?_) (h.link q w).dropped ?_
      · rw [hw]
        exact fun he => hne (some.inj he).symm
      · rw [← append_assoc, (h.link q w).ordered hw]

theorem setQueue_setQueue : (s.setQueue q x).setQueue q x' = s.setQueue q x' := by
  unfold setQueue
  simp only [update_idem]

theorem setQueue_self : s.setQueue q (s.queue q) = s := by
  unfold setQueue
  rw [update_eq_self]

@[simp] theorem setQueue_queue_self : (s.setQueue q x).queue q = x :=
  update_self ..

/-- A queue that no worker has touched. -/
theorem Link.untouched (h : Link q x w y) (hstage : x.stage.worker = none) :
    x.wakeupHandler ≠ some w ∧ y.pc.queue ≠ some q := by
  have hne : x.stage.worker ≠ some w := by rw [hstage]; simp
  exact ⟨fun hs => hne (h.sink hs), fun hq => hne (h.working hq)⟩

variable {stage : QueueStage W}

theorem finish_ne_registered : stage.finish ≠ .registered w := by
  cases stage <;> exact nofun

theorem finish_worker : stage.finish.worker = stage.worker := by
  cases stage <;> rfl

variable (h : Inv s)

include h

/-- The stage of a queue that is not registered. -/
theorem Inv.setStage (hold : (s.queue q).stage.worker = none) (hnew : stage.worker = none) :
    Inv (s.setQueue q { s.queue q with stage := stage }) := by
  refine h.setQueue ⟨(h.queueOk q).empty, fun _ => (h.queueOk q).untouched hold⟩ fun w => ?_
  have hlink := h.link q w
  have hne : ∀ {st : QueueStage W}, st.worker = none → st.worker ≠ some w := by
    intro st hst
    rw [hst]
    simp
  exact hlink.of_ne (hne hold) (hne hnew) (hlink.untouched hold).1

/-- The queue is registered, and the worker notified of the events that are pending. -/
theorem Inv.register (hold : (s.queue q).stage.worker = none) :
    Inv ((s.setQueue q { s.queue q with stage := .registered w }).setEventNotificationSink q
      (some w)) := by
  obtain ⟨hhandled, hposted⟩ := (h.queueOk q).untouched hold
  have hx : QueueOk { s.queue q with stage := .registered w, wakeupHandler := some w } :=
    ⟨(h.queueOk q).empty, fun hs => absurd hs (by simp [QueueStage.worker])⟩
  have hordered : (s.queue q).handled ++ (s.worker w).pc.event q ++ (s.queue q).evQueue =
      (s.queue q).posted := by
    rw [hhandled, event_eq_nil ((h.link q w).untouched hold).2, hposted]
    rfl
  have hdropped : (s.worker w).pc ≠ .dropping q := fun hpc =>
    ((h.link q w).untouched hold).2 (by rw [hpc]; rfl)
  have hne : ∀ w', (s.queue q).stage.worker ≠ some w' := fun w' => by rw [hold]; simp
  dsimp only [EventSystem.setEventNotificationSink]
  simp only [setQueue_queue_self, setQueue_setQueue]
  split_ifs with hp
  · exact h.notify hx rfl rfl (fun w' _ => hne w') (fun hpc => absurd hpc hdropped) hordered
  · refine h.setQueue hx fun w' => ?_
    by_cases hw : w' = w
    · subst hw
      exact Link.of_worker rfl (fun _ hp' => absurd hp' hp) (fun _ => rfl)
        (fun hpc => absurd hpc hdropped) hordered
    · have hw' : some w ≠ some w' := fun he => hw (some.inj he).symm
      exact (h.link q w').of_ne (hne w') hw' hw'

theorem Inv.startup (q : Q) (ok : Bool) : Inv (s.startup q ok) := by
  unfold EventSystem.startup
  split
  · rename_i w hstage
    have hold : (s.queue q).stage.worker = none := by rw [hstage]; rfl
    split_ifs
    · exact h.register hold
    · exact h.setStage hold rfl
  · exact h

/-! ## The steps of a worker -/

/-- A worker that works on no queue. -/
theorem Inv.look (hpc : (s.worker w).pc.queue = none) (hy : WorkerOk y')
    (hlist : y'.processQueues = (s.worker w).processQueues) (hpc' : y'.pc.queue = none) :
    Inv (s.setWorker w y') := by
  refine h.setWorker hy fun q => (h.link q w).frame (by rw [hlist]) (.inr ?_)
  rw [hpc, hpc']
  simp

/-- A worker takes the first queue of its list. -/
theorem Inv.take (hpc : (s.worker w).pc.queue = none) {rest : List Q}
    (hlist : (s.worker w).processQueues = q :: rest) :
    Inv (s.setWorker w { s.worker w with processQueues := rest, pc := .cycle q }) := by
  have hrun : (s.worker w).runcond = true := h.workerOk w (by rw [hlist]; simp)
  refine h.setWorker (fun _ => hrun) fun q' => ?_
  have hlink := h.link q' w
  have hnone : (s.worker w).pc.queue ≠ some q' := by rw [hpc]; simp
  by_cases hq : q' = q
  · subst hq
    have hw := hlink.listed (by rw [hlist]; simp)
    refine Link.of_worker hw (fun _ _ => .inr rfl) hlink.registered (nofun) ?_
    rw [← hlink.ordered hw, event_eq_nil hnone]
    rfl
  · refine hlink.frame ?_ (.inr ⟨hnone, fun he => hq (some.inj he).symm⟩)
    rw [hlist]
    simp [hq]

variable {pc pc' : WorkerPc Q E} (hpc : (s.worker w).pc = pc) (hq : pc.queue = some q)

include hpc hq

/-- The worker is that of the queue, with the next event in its hands. -/
theorem Inv.worksOn : (s.queue q).stage.worker = some w ∧
    (s.queue q).handled ++ pc.event q ++ (s.queue q).evQueue = (s.queue q).posted := by
  subst hpc
  have hw := (h.link q w).working hq
  exact ⟨hw, (h.link q w).ordered hw⟩

/-- A worker that works on a queue goes on. -/
theorem Inv.workOn (hpc' : pc'.queue = none ∨ pc'.queue = some q)
    (hw : x'.stage.worker = (s.queue q).stage.worker)
    (hsink : ∀ w', x'.wakeupHandler = some w' → (s.queue q).wakeupHandler = some w')
    (hempty : x'.evPending = false → x'.evQueue = [])
    (hscheduled : x'.wakeupHandler = some w → x'.evPending = true →
      q ∈ (s.worker w).processQueues ∨ pc'.Busy q)
    (hregistered : x'.stage = .registered w → x'.wakeupHandler = some w)
    (hdropped : pc' = .dropping q → x'.stage ≠ .registered w)
    (hordered : x'.handled ++ pc'.event q ++ x'.evQueue = x'.posted) :
    Inv ((s.setQueue q x').setPc w pc') := by
  have hold := (h.worksOn hpc hq).1
  have hnew : x'.stage.worker = some w := hw.trans hold
  have hx : QueueOk x' := ⟨hempty, fun hs => absurd (hnew.symm.trans hs) (by simp)⟩
  refine h.setBoth hx (h.workerOk w)
    (Link.of_worker hnew hscheduled hregistered hdropped hordered) (fun w' hne => ?_)
    fun q' hne => ?_
  · have hne' : (s.queue q).stage.worker ≠ some w' := by
      rw [hold]
      exact fun he => hne (some.inj he).symm
    exact (h.link q w').of_ne hne' (hw ▸ hne') fun hs => hne' ((h.link q w').sink (hsink w' hs))
  · refine (h.link q' w).frame Iff.rfl (.inr ⟨?_, ?_⟩)
    · rw [hpc, hq]
      exact fun he => hne (some.inj he).symm
    · rcases hpc' with hpc' | hpc' <;> rw [hpc']
      · simp
      · exact fun he => hne (some.inj he).symm

variable (pc') in
/-- A worker goes on without touching the events of the queue. -/
theorem Inv.move (hpc' : pc'.queue = none ∨ pc'.queue = some q) (hbusy : pc.Busy q → pc'.Busy q)
    (hevent : pc'.event q = pc.event q) (hdropping : pc' ≠ .dropping q) (kind : QueueKind)
    (finalized : Bool) :
    Inv ((s.setQueue q { s.queue q with kind := kind, finalized := finalized }).setPc w pc') := by
  have hlink := h.link q w
  refine h.workOn hpc hq hpc' rfl (fun _ hs => hs) (h.queueOk q).empty
    (fun hs hp => (hlink.scheduled hs hp).imp id fun hb => hbusy (hpc ▸ hb)) hlink.registered
    (fun he => absurd he hdropping) ?_
  rw [hevent]
  exact (h.worksOn hpc hq).2

/-- The processing cycle has returned `false`. -/
theorem Inv.finish (hevent : pc.event q = []) {kind : QueueKind} :
    Inv ((s.setQueue q { s.queue q with kind := kind, stage := (s.queue q).stage.finish }).setPc w
      (.dropping q)) := by
  refine h.workOn hpc hq (.inr rfl) finish_worker (fun _ hs => hs) (h.queueOk q).empty
    (fun _ _ => .inr rfl) (fun hs => absurd hs finish_ne_registered)
    (fun _ => finish_ne_registered) ?_
  rw [← (h.worksOn hpc hq).2, hevent]
  rfl

omit hpc hq

/-- The worker finds the queue empty. -/
theorem Inv.drained (hpc : (s.worker w).pc = .draining q) (hevs : (s.queue q).evQueue = []) :
    Inv ((s.setQueue q { s.queue q with evPending := false }).setPc w (.drained q)) :=
  h.workOn hpc rfl (.inr rfl) rfl (fun _ hs => hs) (fun _ => hevs) (fun _ hp => nomatch hp)
    (h.link q w).registered (nofun) (h.worksOn hpc rfl).2

/-- The worker takes an event out of the queue. -/
theorem Inv.pop (hpc : (s.worker w).pc = .draining q) {ev : E} {rest : List E}
    (hevs : (s.queue q).evQueue = ev :: rest) :
    Inv ((s.setQueue q { s.queue q with evQueue := rest }).setPc w (.handling q ev)) := by
  have hpending : (s.queue q).evPending ≠ false := fun hp =>
    absurd ((h.queueOk q).empty hp) (by rw [hevs]; simp)
  refine h.workOn hpc rfl (.inr rfl) rfl (fun _ hs => hs) (fun hp => absurd hp hpending)
    (fun _ _ => .inr rfl) (h.link q w).registered (nofun) ?_
  rw [← (h.worksOn hpc rfl).2, hevs]
  simp [event]

/-- The event has been handled. -/
theorem Inv.handle {ev : E} (hpc : (s.worker w).pc = .handling q ev) (hpc' : pc'.queue = some q)
    (hbusy : pc'.Busy q) (hevent : pc'.event q = []) (hdropping : pc' ≠ .dropping q) :
    Inv ((s.setQueue q { s.queue q with handled := (s.queue q).handled ++ [ev] }).setPc w
      pc') := by
  refine h.workOn hpc rfl (.inr hpc') rfl (fun _ hs => hs) (h.queueOk q).empty
    (fun _ _ => .inr hbusy) (h.link q w).registered (fun he => absurd he hdropping) ?_
  rw [← (h.worksOn hpc rfl).2, hevent]
  simp [event]

/-- The worker takes itself off the queue. -/
theorem Inv.drop (hpc : (s.worker w).pc = .dropping q) :
    Inv ((s.setEventNotificationSink q none).setPc w (.finalizing q)) := by
  have hset : s.setEventNotificationSink q none =
      s.setQueue q { s.queue q with wakeupHandler := none } := ite_self _
  rw [hset]
  exact h.workOn hpc rfl (.inr rfl) rfl (fun _ hs => nomatch hs) (h.queueOk q).empty
    (nofun) (fun hs => absurd hs ((h.link q w).dropped hpc))
    (nofun) (h.worksOn hpc rfl).2

theorem Inv.work (w : W) (input : WorkInput) : Inv (s.work w input) := by
  unfold EventSystem.work
  cases hpc : (s.worker w).pc with
  | waiting =>
    split_ifs
    · exact h.look (by rw [hpc]; rfl) (h.workerOk w) rfl rfl
    · exact h
  | looking =>
    have hnone : (s.worker w).pc.queue = none := by rw [hpc]; rfl
    dsimp only
    cases hlist : (s.worker w).processQueues with
    | nil => exact h.look hnone (fun hne => absurd rfl hne) hlist.symm rfl
    | cons q rest => exact h.take hnone hlist
  | cycle q =>
    have hmove := fun pc' hpc' hbusy hevent hdropping =>
      h.move pc' hpc rfl hpc' hbusy hevent hdropping (s.queue q).kind (s.queue q).finalized
    rw [setQueue_self] at hmove
    dsimp only
    split_ifs
    · exact hmove (.failed q) (.inr rfl) (fun _ => rfl) rfl nofun
    · exact hmove (.draining q) (.inr rfl) (fun _ => rfl) rfl nofun
  | draining q =>
    dsimp only
    split
    · rename_i hevs
      exact h.drained hpc hevs
    · rename_i ev rest hevs
      exact h.pop hpc hevs
  | handling q ev =>
    dsimp only
    split_ifs
    · exact h.handle hpc rfl rfl rfl nofun
    · exact h.handle hpc rfl rfl rfl nofun
  | drained q =>
    dsimp only
    split_ifs
    · exact h.move (.releasing q) hpc rfl (.inr rfl) id rfl nofun
        ((s.queue q).kind.cycle input).1 (s.queue q).finalized
    · exact h.finish hpc rfl rfl
  | failed q => exact h.finish hpc rfl rfl
  | dropping q => exact h.drop hpc
  | finalizing q =>
    exact h.move (.releasing q) hpc rfl (.inr rfl) id rfl nofun (s.queue q).kind
      ((s.queue q).finalized || (s.queue q).kind.marks)
  | releasing q =>
    have hmove := h.move .looking hpc rfl (.inl rfl) id rfl nofun (s.queue q).kind
      (s.queue q).finalized
    rwa [setQueue_self] at hmove

/-! ## Runs -/

omit h in
theorem Inv.init (kind : Q → QueueKind) : Inv (init kind : EventSystem Q W E) where
  queueOk := fun _ => ⟨fun _ => rfl, fun _ => ⟨rfl, rfl⟩⟩
  workerOk := fun _ hne => absurd rfl hne
  link := fun _ _ =>
    { scheduled := nofun
      sink := nofun
      listed := fun hq => absurd hq not_mem_nil
      working := nofun
      registered := nofun
      dropped := nofun
      ordered := nofun }

theorem Inv.step : ∀ ev : EventSystemEv Q W E, Inv (s.step ev)
  | .post q event => h.postEvent q event
  | .start q w => by
    rw [EventSystem.step]
    split
    · rename_i hstage
      exact h.setStage (by rw [hstage]; rfl) rfl
    · exact h
  | .startup q ok => h.startup q ok
  | .work w input => h.work w input

omit h

/-- A registered queue that is not finished is empty, or its worker works on it or has it in its
list, and a worker with a list is awake. -/
def NoLostWakeup (s : EventSystem Q W E) : Prop :=
  (∀ q w, (s.queue q).stage = .registered w → q ∉ (s.worker w).processQueues →
    (s.worker w).pc.queue ≠ some q → (s.queue q).evQueue = []) ∧
  ∀ w, (s.worker w).processQueues ≠ [] → (s.worker w).runcond = true

/-- The events that were handed to the handler are the first that were posted, each once. -/
def InOrder (s : EventSystem Q W E) : Prop :=
  ∀ q, (s.queue q).handled <+: (s.queue q).posted

theorem Inv.noLostWakeup (h : Inv s) : NoLostWakeup s := by
  refine ⟨fun q w hstage hlist hpc => ?_, h.workerOk⟩
  have hlink := h.link q w
  refine (h.queueOk q).empty (Bool.eq_false_iff.2 fun hp => ?_)
  rcases hlink.scheduled (hlink.registered hstage) hp with hq | hbusy
  · exact hlist hq
  · exact hpc (busy_queue hbusy)

theorem Inv.inOrder (h : Inv s) : InOrder s := by
  intro q
  cases hw : (s.queue q).stage.worker with
  | none =>
    rw [((h.queueOk q).untouched hw).1]
    exact nil_prefix
  | some w =>
    rw [← (h.link q w).ordered hw, append_assoc]
    exact prefix_append _ _

/-- In every interleaving of posts, startups and steps of the workers no wake-up is lost, and the
events of a queue are handled at most once and in the order of the posts. -/
theorem eventQueues_runs (kind : Q → QueueKind) (evs : List (EventSystemEv Q W E)) :
    NoLostWakeup (runFrom step (init kind) evs) ∧ InOrder (runFrom step (init kind) evs) := by
  have hinv : Inv (runFrom step (init kind) evs) :=
    runFrom_inv (fun hs => hs.step _) evs (Inv.init kind)
  exact ⟨hinv.noLostWakeup, hinv.inOrder⟩

/-- The events that the step posts to the queue. -/
def posts (q : Q) : EventSystemEv Q W E → List E
  | .post q' event => if q' = q then event.toList else []
  | _ => []

theorem posted_setQueue {x : EventQueue W E} (hx : x.posted = (s.queue q).posted) (q' : Q) :
    ((s.setQueue q x).queue q').posted = (s.queue q').posted := by
  rcases eq_or_ne q' q with rfl | hne
  · rw [setQueue_queue_self, hx]
  · exact congrArg EventQueue.posted (update_of_ne hne ..)

theorem posted_notifySink (sink : Option W) (q q' : Q) :
    ((s.notifySink sink q).queue q').posted = (s.queue q').posted := by
  cases sink <;> rfl

theorem posted_setEventNotificationSink (sink : Option W) (q' : Q) :
    ((s.setEventNotificationSink q sink).queue q').posted = (s.queue q').posted := by
  unfold setEventNotificationSink
  dsimp only
  split_ifs
  · rw [posted_notifySink, posted_setQueue (by rfl)]
  · exact posted_setQueue (by rfl) q'

theorem posted_work (w : W) (input : WorkInput) (q : Q) :
    ((s.work w input).queue q).posted = (s.queue q).posted := by
  unfold EventSystem.work
  cases (s.worker w).pc <;> dsimp only
  case dropping => exact posted_setEventNotificationSink none q
  all_goals (repeat' split) <;> first | rfl | exact posted_setQueue (by rfl) q

/-- Only a post changes the events posted. -/
theorem posted_step (ev : EventSystemEv Q W E) (q : Q) :
    ((s.step ev).queue q).posted = (s.queue q).posted ++ posts q ev := by
  cases ev with
  | post q' event =>
    have hset {x : EventQueue W E} (hx : x.posted = (s.queue q').posted ++ event.toList) :
        ((s.setQueue q' x).queue q).posted =
          (s.queue q).posted ++ if q' = q then event.toList else [] := by
      split_ifs with hq
      · rw [← hq, setQueue_queue_self, hx]
      · rw [append_nil]
        exact congrArg EventQueue.posted (update_of_ne (Ne.symm hq) ..)
    rw [EventSystem.step, EventSystem.postEvent, posts]
    cases (s.queue q').evPending with
    | true => exact hset (by rfl)
    | false => exact (posted_notifySink _ q' q).trans (hset (by rfl))
  | start q' w =>
    refine Eq.trans ?_ (append_nil _).symm
    rw [EventSystem.step]
    split
    · exact posted_setQueue (by rfl) q
    · rfl
  | startup q' ok =>
    refine Eq.trans ?_ (append_nil _).symm
    rw [EventSystem.step, EventSystem.startup]
    repeat' split
    · rw [posted_setEventNotificationSink, posted_setQueue (by rfl)]
    · exact posted_setQueue (by rfl) q
    · rfl
  | work w input => exact (posted_work w input q).trans (append_nil _).symm

theorem posted_runFrom (q : Q) : ∀ (evs : List (EventSystemEv Q W E)) (s : EventSystem Q W E),
    ((runFrom step s evs).queue q).posted = (s.queue q).posted ++ evs.flatMap (posts q)
  | [], s => (append_nil _).symm
  | ev :: evs, s => by
    rw [flatMap_cons, ← append_assoc, ← posted_step]
    exact posted_runFrom q evs (s.step ev)

/-- A worker has the queue : it works on it, or has it in its list. -/
def Has (s : EventSystem Q W E) (w : W) (q : Q) : Prop :=
  (s.worker w).pc.queue = some q ∨ q ∈ (s.worker w).processQueues

theorem Inv.worker_of_has (h : Inv s) (hq : s.Has w q) : (s.queue q).stage.worker = some w :=
  hq.elim (h.link q w).working (h.link q w).listed

/-- In every interleaving no two workers have one queue, the events handled are the first that the
run posts to the queue, and all of them once no worker has a registered queue. -/
theorem oneWorker_runs (kind : Q → QueueKind) (evs : List (EventSystemEv Q W E)) :
    let s := runFrom step (init kind) evs
    (∀ q w w', s.Has w q → s.Has w' q → w = w') ∧
      ∀ q, (s.queue q).handled <+: evs.flatMap (posts q) ∧
        ∀ w, (s.queue q).stage = .registered w → ¬ s.Has w q →
          (s.queue q).handled = evs.flatMap (posts q) := by
  intro s
  have h : Inv s := runFrom_inv (fun hs => hs.step _) evs (Inv.init kind)
  have hposted (q : Q) : evs.flatMap (posts q) = (s.queue q).posted :=
    (posted_runFrom q evs (init kind)).symm
  refine ⟨fun q w w' hw hw' => ?_, fun q => ?_⟩
  · exact Option.some.inj ((h.worker_of_has hw).symm.trans (h.worker_of_has hw'))
  rw [hposted]
  refine ⟨h.inOrder q, fun w hstage hno => ?_⟩
  obtain ⟨hpc, hlist⟩ := not_or.1 hno
  have hordered := (h.link q w).ordered (by rw [hstage]; rfl)
  rwa [h.noLostWakeup.1 q w hstage hlist hpc, event_eq_nil hpc, append_nil, append_nil]
    at hordered

end EventSystem

end Sems
