import Sems.WheelRows

/-!
# The timer wheel refines a timer service

`TimerService` says what the wheel is for : a clock and a set of pending timers. A tick
advances the clock, applies the queued requests, and fires the pending timers that are due.
`Wheeltimer.Refines` relates a wheel to a service : every pending timer is in the list its
`expires` and the clock give, and the pointers of a timer that has fired are null. Each part of a
tick keeps it, and so does a whole run (`run_refines`).

On the service it is plain when a timer fires (`TimerService.run_fired`), so the wheel fires
every timer in the one tick it is due in, provided it was inserted once and not removed
before (`fired_exactly_once`).
-/

set_option linter.unusedSectionVars false

namespace Sems

open List TimerEv Links
open BitVec (ofNat ofNat_add add_assoc add_comm)

/-! ## The service -/

/-- A timer is due when the clock has reached its `expires`, or passed it. -/
def Due (e c : BitVec 32) : Prop :=
  e = c ∨ lessTs e c = true

instance (e c : BitVec 32) : Decidable (Due e c) :=
  inferInstanceAs (Decidable (_ ∨ _))

/-- What a timer wheel is for. `inserted` and `removed` are the timers of the requests
processed so far. -/
structure TimerService (T : Type*) where
  clock : BitVec 32
  pending : Finset T
  inserted : Finset T
  removed : Finset T
  requests : List (TimerReq T)

namespace TimerService

variable {T : Type*} [DecidableEq T] (expires : T → BitVec 32)

def init : TimerService T where
  clock := 0
  pending := ∅
  inserted := ∅
  removed := ∅
  requests := []

variable (s : TimerService T)

def request (rq : TimerReq T) : TimerService T :=
  { s with requests := s.requests ++ [rq] }

/-- Process one request. -/
def process (rq : TimerReq T) : TimerService T :=
  if rq.insert then
    { s with pending := insert rq.t s.pending, inserted := insert rq.t s.inserted }
  else { s with pending := s.pending.erase rq.t, removed := insert rq.t s.removed }

def processAll (rqs : List (TimerReq T)) : TimerService T :=
  rqs.foldl process s

/-- Advance the clock and take the requests. -/
def advance : TimerService T :=
  { s with clock := s.clock + 1, requests := [] }

/-- One tick : the service after it and the timers it fires. -/
def tick : TimerService T × Finset T :=
  let s := processAll s.advance s.requests
  ({ s with pending := s.pending.filter fun t => ¬ Due (expires t) s.clock },
    s.pending.filter fun t => Due (expires t) s.clock)

/-- The clock and the fired timers of each tick of a run. -/
def run : TimerService T → List (TimerEv T) → List (BitVec 32 × Finset T)
  | _, [] => []
  | s, .insertTimer t :: evs => run (s.request ⟨t, true⟩) evs
  | s, .removeTimer t :: evs => run (s.request ⟨t, false⟩) evs
  | s, .turnWheel :: evs =>
    let r := s.tick expires
    (r.1.clock, r.2) :: run r.1 evs

/-- The requests `rqs`, from `s` on, insert each timer once, and remove only inserted timers, each
once. -/
def Allows : TimerService T → List (TimerReq T) → Prop
  | _, [] => True
  | s, rq :: rqs =>
    (if rq.insert then rq.t ∉ s.inserted else rq.t ∈ s.inserted ∧ rq.t ∉ s.removed) ∧
      Allows (s.process rq) rqs

@[simp]
theorem process_clock {rq : TimerReq T} : (s.process rq).clock = s.clock := by
  unfold process
  split_ifs <;> rfl

@[simp]
theorem process_requests {rq : TimerReq T} : (s.process rq).requests = s.requests := by
  unfold process
  split_ifs <;> rfl

theorem processAll_clock : ∀ (rqs : List (TimerReq T)) (s : TimerService T),
    (s.processAll rqs).clock = s.clock
  | [], _ => rfl
  | rq :: rqs, s => (processAll_clock rqs (s.process rq)).trans (process_clock s)

theorem processAll_requests : ∀ (rqs : List (TimerReq T)) (s : TimerService T),
    (s.processAll rqs).requests = s.requests
  | [], _ => rfl
  | rq :: rqs, s => (processAll_requests rqs (s.process rq)).trans (process_requests s)

theorem tick_clock : (s.tick expires).1.clock = s.clock + 1 :=
  processAll_clock s.requests s.advance

theorem tick_requests : (s.tick expires).1.requests = [] :=
  processAll_requests s.requests s.advance

/-- What the requests do depends on the timers only. -/
theorem processAll_congr : ∀ (rqs : List (TimerReq T)) (s s' : TimerService T),
    s.pending = s'.pending → s.inserted = s'.inserted → s.removed = s'.removed →
      (s.processAll rqs).pending = (s'.processAll rqs).pending ∧
      (s.processAll rqs).inserted = (s'.processAll rqs).inserted ∧
      (s.processAll rqs).removed = (s'.processAll rqs).removed
  | [], _, _, hp, hi, hr => ⟨hp, hi, hr⟩
  | rq :: rqs, s, s', hp, hi, hr => by
    refine processAll_congr rqs _ _ ?_ ?_ ?_ <;> unfold process <;> split_ifs <;> simp [hp, hi, hr]

theorem allows_congr : ∀ (rqs : List (TimerReq T)) {s s' : TimerService T},
    s.inserted = s'.inserted → s.removed = s'.removed → s.Allows rqs → s'.Allows rqs
  | [], _, _, _, _, _ => trivial
  | rq :: rqs, s, s', hi, hr, ⟨h1, h2⟩ => by
    refine ⟨by rw [← hi, ← hr]; exact h1, allows_congr rqs ?_ ?_ h2⟩ <;>
      unfold process <;> split_ifs <;> simp [hi, hr]

theorem allows_append : ∀ (rqs rqs' : List (TimerReq T)) {s : TimerService T},
    s.Allows (rqs ++ rqs') ↔ s.Allows rqs ∧ (s.processAll rqs).Allows rqs'
  | [], _, _ => by simp [Allows, processAll]
  | rq :: rqs, rqs', s => by
    rw [cons_append, Allows, Allows, allows_append rqs rqs', and_assoc]
    rfl

end TimerService

/-! ## The refinement -/

/-- The list of a timer : its place by `expires`, or the current list when it is late. -/
def place (e c : BitVec 32) : ℕ × ℕ :=
  if lessTs e c then (0, wheelPos c 0) else placeHead e c (WHEELS - 1)

theorem place_of_not_late {e c : BitVec 32} (h : lessTs e c = false) :
    place e c = placeHead e c 3 := by
  rw [place, h]
  rfl

/-- The current list is the place of the timers that are due. -/
theorem place_eq_current (e c : BitVec 32) : place e c = (0, wheelPos c 0) ↔ Due e c := by
  unfold place Due
  split_ifs with h
  · simp [h]
  · simp [h, WHEELS, placeHead_eq_current]

namespace Wheeltimer

open TimerService (process allows_congr allows_append processAll_congr)

variable {T : Type*} [DecidableEq T] {expires : T → BitVec 32}

/-- The timers a service has inserted that are neither pending nor removed. -/
def fired (s : TimerService T) : Set T :=
  {t | t ∈ s.inserted ∧ t ∉ s.pending ∧ t ∉ s.removed}

/-- The wheel `w` holds the pending timers of the service `s`, each in the list `loc` gives. -/
structure Refines (loc : T → ℕ × ℕ) (w : Wheeltimer T) (s : TimerService T) : Prop where
  clock : w.wallClock = s.clock
  requests : w.reqsBacklog = s.requests
  placed : w.placed = s.inserted.card
  pending_sub : s.pending ⊆ s.inserted
  wheels : w.wheels.Placed ↑s.pending (fired s) loc

/-- Every pending timer is where the clock puts it. -/
abbrev RefinesAt (expires : T → BitVec 32) (w : Wheeltimer T) (s : TimerService T) : Prop :=
  Refines (fun t => place (expires t) s.clock) w s

variable {loc : T → ℕ × ℕ} {w : Wheeltimer T} {s : TimerService T}

theorem Refines.congr (h : Refines loc w s) {loc' : T → ℕ × ℕ}
    (hloc : ∀ t ∈ s.pending, loc' t = loc t) : Refines loc' w s :=
  { h with wheels := h.wheels.congr hloc }

/-- The lists are no longer than the bound of the pointer walks. -/
theorem Refines.length_le (h : Refines loc w s) {l : List T} (hnd : l.Nodup)
    (hl : ∀ t ∈ l, t ∈ s.pending) : l.length ≤ w.placed := by
  rw [h.placed, ← toFinset_card_of_nodup hnd]
  refine Finset.card_le_card fun t ht => h.pending_sub (hl t ?_)
  exact mem_toFinset.1 ht

theorem init_refines : Refines loc (init : Wheeltimer T) TimerService.init where
  clock := rfl
  requests := rfl
  placed := rfl
  pending_sub := Finset.Subset.refl _
  wheels := by
    have h := placed_empty loc
    refine ⟨?_, fun t ht => ?_⟩
    · simpa [TimerService.init, init] using h.lists
    · simp [fired, TimerService.init] at ht

/-! ### Placing and removing -/

theorem placeTimerFrom_eq {t : T} : ∀ k,
    placeTimerFrom expires w t k =
      { w with wheels := w.wheels.pushFront t (placeHead (expires t) w.wallClock k) }
  | 0 => rfl
  | k + 1 => by
    unfold placeTimerFrom placeHead placeLevel
    simp only [wheelPos_xor_ne_zero]
    split_ifs
    · rfl
    · exact placeTimerFrom_eq k

theorem placeTimer_eq (w : Wheeltimer T) (t : T) :
    placeTimer expires w t =
      { w with wheels := w.wheels.pushFront t (place (expires t) w.wallClock) } := by
  unfold placeTimer place
  split_ifs
  · rfl
  · exact placeTimerFrom_eq _

variable (h : RefinesAt expires w s)

include h

theorem insert_refines {t : T} (ht : t ∉ s.inserted) :
    RefinesAt expires (processReq expires w ⟨t, true⟩) (s.process ⟨t, true⟩) := by
  have hpending : t ∉ s.pending := fun hp => ht (h.pending_sub hp)
  have hwheels := h.wheels.pushFront hpending (place (expires t) s.clock)
  refine
    { clock := ?_, requests := ?_, placed := ?_, pending_sub := ?_, wheels := ?_ }
  · simp [processReq, placeTimer_eq, h.clock, process]
  · simp [processReq, placeTimer_eq, h.requests, process]
  · simp [processReq, h.placed, process, Finset.card_insert_of_notMem ht]
  · exact Finset.insert_subset_insert t h.pending_sub
  · simp only [processReq, if_true, placeTimer_eq, h.clock, process]
    rw [Finset.coe_insert]
    refine (hwheels.congr fun u _ => ?_).mono fun u hu => ⟨?_, ?_⟩
    · rcases eq_or_ne u t with rfl | hu
      · simp
      · simp [hu]
    · obtain ⟨h1, h2, h3⟩ := hu
      simp only [Finset.mem_insert, not_or] at h1 h2
      exact ⟨h1.resolve_left h2.1, h2.2, h3⟩
    · rintro rfl
      exact hu.2.1 (Finset.mem_insert_self u _)

omit h in
theorem remove_refines (h : Refines loc w s) {t : T} (ht : t ∈ s.inserted) (hr : t ∉ s.removed) :
    Refines loc (processReq expires w ⟨t, false⟩) (s.process ⟨t, false⟩) := by
  refine
    { clock := h.clock, requests := h.requests, placed := h.placed,
      pending_sub := (Finset.erase_subset _ _).trans h.pending_sub, wheels := ?_ }
  have hsub : fired (s.process ⟨t, false⟩) ⊆ fired s := by
    rintro u ⟨h1, h2, h3⟩
    simp only [process, Bool.false_eq_true, if_false, Finset.mem_insert,
      Finset.mem_erase, not_or, not_and] at h1 h2 h3
    exact ⟨h1, h2 h3.1, h3.2⟩
  show Links.Placed (w.wheels.unlink t) ↑(s.pending.erase t) _ loc
  rw [Finset.coe_erase]
  by_cases hp : t ∈ s.pending
  · exact (h.wheels.unlink hp).mono hsub
  · -- the timer has fired : its pointers are null, there is nothing to unlink
    have hd := (h.wheels.detached t ⟨ht, hp, hr⟩).2
    rw [hd.unlink, Set.sdiff_singleton_eq_self hp]
    exact h.wheels.mono hsub

variable {rqs : List (TimerReq T)}
variable {rq : TimerReq T}

theorem processReq_refines (hrq : s.Allows (rq :: rqs)) :
    RefinesAt expires (processReq expires w rq) (s.process rq) := by
  obtain ⟨t, _ | _⟩ := rq
  · exact remove_refines h hrq.1.1 hrq.1.2
  · exact insert_refines h hrq.1

omit h in
theorem processReqs_refines : ∀ {rqs : List (TimerReq T)} {w : Wheeltimer T} {s : TimerService T},
    RefinesAt expires w s → s.Allows rqs →
      RefinesAt expires (rqs.foldl (processReq expires) w) (s.processAll rqs)
  | [], _, _, h, _ => h
  | rq :: rqs, w, s, h, hrqs => by
    have hrest := processReqs_refines (processReq_refines h hrqs) hrqs.2
    exact hrest

/-! ### Cascading and firing -/

omit h in
theorem foldl_placeTimerFrom {k : ℕ} : ∀ (l : List T) (w : Wheeltimer T),
    l.foldl (fun w t => placeTimerFrom expires w t k) w =
      { w with wheels :=
          moveAll (fun t => placeHead (expires t) w.wallClock k) l w.wheels }
  | [], _ => rfl
  | t :: l, w => by
    rw [foldl_cons, foldl_placeTimerFrom l, placeTimerFrom_eq]
    rfl

omit h in
variable (expires) in
/-- Cascading a row moves the timers of its current list to the rows below. -/
theorem updateRow_refines (h : Refines loc w s) {k : ℕ} (hk : k + 1 < WHEELS) :
    Refines
      (fun t => if loc t = (k + 1, wheelPos s.clock (k + 1)) then placeHead (expires t) s.clock k
        else loc t)
      (updateRow expires w (k + 1)) s := by
  obtain ⟨l, hnd, hl, hpath⟩ := h.wheels.exists_path (k + 1, wheelPos s.clock (k + 1))
  have hbody : ∀ (w : Wheeltimer T) t u, u ≠ t →
      (placeTimerFrom expires w t k).wheels.next (.node u) = w.wheels.next (.node u) := by
    intro w t u hu
    simp [placeTimerFrom_eq, pushFront_next, hu]
  have hlen := h.length_le hnd fun t ht => ((hl t).1 ht).1
  have hrow : updateRow expires w (k + 1) =
      { w with
        wheels := clear (moveAll (fun t => placeHead (expires t) s.clock k) l w.wheels)
          (k + 1, wheelPos s.clock (k + 1)) } := by
    rw [updateRow, if_pos hk]
    simp only [Nat.add_sub_cancel, h.clock]
    rw [walk_eq_foldl hbody hpath hnd hlen, foldl_placeTimerFrom, h.clock]
  rw [hrow]
  refine { h with wheels := h.wheels.moveAll hnd hl fun t _ he => ?_ }
  -- a cascaded timer goes to a lower row
  have hle := placeLevel_le (expires t) s.clock k
  have hrows := (Prod.mk.inj he).1
  omega

omit h in
theorem updateWheel_refines : ∀ {k : ℕ} {loc : T → ℕ × ℕ} {w : Wheeltimer T},
    k < WHEELS → Refines loc w s →
      Refines (fun t => fall (expires t) s.clock (loc t) k) (updateWheel expires w k) s
  | 0, _, _, _, h => h
  | k + 1, _, _, hk, h => by
    have hrest := updateWheel_refines (k := k) (by omega) (updateRow_refines expires h hk)
    exact hrest

omit h in
/-- The row above the highest one does not exist. -/
theorem updateWheel_min {k : ℕ} (hk : k ≤ WHEELS) :
    updateWheel expires w k = updateWheel expires w (min 3 k) := by
  rcases Nat.lt_or_ge k WHEELS with h | h
  · rw [min_eq_right (by unfold WHEELS at h; omega)]
  · obtain rfl : k = WHEELS := le_antisymm hk h
    rfl

omit h in
theorem foldl_fireTimer : ∀ (l : List T) (w : Wheeltimer T) (acc : List T),
    l.foldl (fun r t => fireTimer t r) (w, acc) =
      ({ w with wheels := detachAll l w.wheels }, acc ++ l)
  | [], w, acc => by simp [detachAll]
  | t :: l, w, acc => by
    rw [foldl_cons, fireTimer, foldl_fireTimer l]
    simp [detachAll]

/-- Firing empties the current list, and lists the timers of it once each. -/
theorem processCurrentTimers_refines :
    RefinesAt expires w.processCurrentTimers.1
        { s with pending := s.pending.filter fun t => ¬ Due (expires t) s.clock } ∧
      w.processCurrentTimers.2.Nodup ∧
      ∀ t, t ∈ w.processCurrentTimers.2 ↔
        t ∈ s.pending.filter fun t => Due (expires t) s.clock := by
  obtain ⟨l, hnd, hl, hpath⟩ := h.wheels.exists_path (0, wheelPos s.clock 0)
  have hbody : ∀ (r : Wheeltimer T × List T) t u, u ≠ t →
      (fireTimer t r).1.wheels.next (.node u) = r.1.wheels.next (.node u) := by
    intro r t u hu
    simp [fireTimer, detach, setNext, setPrev, hu]
  have hlen := h.length_le hnd fun t ht => ((hl t).1 ht).1
  have hcur : w.processCurrentTimers =
      ({ w with wheels := (detachAll l w.wheels).clear (0, wheelPos s.clock 0) }, l) := by
    have hwalk : walk (fun r : Wheeltimer T × List T => r.1.wheels) fireTimer w.placed
        (w.wheels.next (.head (0, wheelPos s.clock 0))) (w, []) = _ :=
      walk_eq_foldl hbody hpath hnd hlen
    rw [foldl_fireTimer] at hwalk
    simp [processCurrentTimers, h.clock, hwalk]
  have hdue : ∀ t, t ∈ l ↔ t ∈ s.pending ∧ Due (expires t) s.clock := fun t => by
    rw [hl, ← place_eq_current]
    rfl
  rw [hcur]
  refine ⟨{ h with pending_sub := ?_, wheels := ?_ }, hnd, fun t => ?_⟩
  · exact (Finset.filter_subset _ _).trans h.pending_sub
  · have hset :
        {t | t ∈ (↑s.pending : Set T) ∧ place (expires t) s.clock ≠ (0, wheelPos s.clock 0)} =
          ↑(s.pending.filter fun t => ¬ Due (expires t) s.clock) := by
      ext t
      simp [place_eq_current]
    rw [← hset]
    refine (h.wheels.detachAll hl).mono ?_
    rintro t ⟨h1, h2, h3⟩
    by_cases hp : t ∈ s.pending
    · exact .inr ((hdue t).2 ⟨hp, by simpa [hp] using h2⟩)
    · exact .inl ⟨h1, hp, h3⟩
  · rw [hdue, Finset.mem_filter]

/-! ### Ticks and runs -/

omit h in
theorem not_due_iff (e c : BitVec 32) : ¬ Due e c ↔ e ≠ c ∧ lessTs e c = false := by
  simp [Due]

/-- After the cascade every pending timer is where the new clock puts it. -/
theorem cascade_refines (hdue : ∀ t ∈ s.pending, ¬ Due (expires t) s.clock) :
    RefinesAt expires
      (updateWheel expires { w with wallClock := w.wallClock + 1 }
        (wheelToUpdate w.wallClock WHEELS 255#32))
      { s with clock := s.clock + 1 } := by
  have hbefore : Refines (fun t => placeHead (expires t) s.clock 3)
      { w with wallClock := w.wallClock + 1 } { s with clock := s.clock + 1 } := by
    refine { h.congr fun t ht => ?_ with clock := congrArg (· + 1) h.clock }
    rw [place_of_not_late ((not_due_iff _ _).1 (hdue t ht)).2]
  have hrows : wheelToUpdate w.wallClock WHEELS 255#32 ≤ WHEELS := by
    rw [wheelToUpdate_eq]
    unfold WHEELS
    split_ifs <;> omega
  have hmin : min 3 (wheelToUpdate w.wallClock WHEELS 255#32) < WHEELS := by
    unfold WHEELS
    omega
  rw [updateWheel_min hrows]
  refine (updateWheel_refines hmin hbefore).congr fun t ht => ?_
  obtain ⟨hne, hfut⟩ := (not_due_iff _ _).1 (hdue t ht)
  rw [h.clock, fall_placeHead_succ hne hfut, place_of_not_late (lessTs_succ hne hfut)]

/-- A tick of the wheel is a tick of the service, and fires each timer once. -/
theorem turnWheel_refines (hdue : ∀ t ∈ s.pending, ¬ Due (expires t) s.clock)
    (hrqs : s.Allows s.requests) :
    RefinesAt expires (turnWheel expires w).1 (s.tick expires).1 ∧
      (turnWheel expires w).2.Nodup ∧
      ∀ t, t ∈ (turnWheel expires w).2 ↔ t ∈ (s.tick expires).2 := by
  have hcascade := cascade_refines h hdue
  unfold turnWheel
  simp only []
  generalize updateWheel expires _ _ = w' at hcascade ⊢
  rw [hcascade.requests]
  have hready : RefinesAt expires { w' with reqsBacklog := [] } s.advance :=
    { hcascade with requests := rfl }
  have hallows : s.advance.Allows s.requests :=
    allows_congr s.requests (s := s) rfl rfl hrqs
  exact processCurrentTimers_refines (processReqs_refines hready hallows)

omit h

theorem tick_not_due :
    ∀ t ∈ (s.tick expires).1.pending, ¬ Due (expires t) (s.tick expires).1.clock := fun _ ht =>
  (Finset.mem_filter.1 ht).2

theorem tick_allows (h : s.Allows (s.requests ++ rqs)) : (s.tick expires).1.Allows rqs := by
  obtain ⟨-, hi, hr⟩ :=
    processAll_congr s.requests s s.advance rfl rfl rfl
  exact allows_congr rqs hi hr ((allows_append _ _).1 h).2

theorem request_refines (h : Refines loc w s) :
    Refines loc { w with reqsBacklog := w.reqsBacklog ++ [rq] } (s.request rq) :=
  { h with requests := congrArg (· ++ [rq]) h.requests }

theorem request_allows (h : s.Allows (s.requests ++ rq :: rqs)) :
    (s.request rq).Allows ((s.request rq).requests ++ rqs) := by
  refine allows_congr _ (s := s) rfl rfl ?_
  simpa [TimerService.request] using h

/-- The ticks of a run of the wheel are those of the service. -/
theorem run_refines : ∀ {evs : List (TimerEv T)} {w : Wheeltimer T} {s : TimerService T},
    RefinesAt expires w s →
    (∀ t ∈ s.pending, ¬ Due (expires t) s.clock) →
    s.Allows (s.requests ++ requests evs) →
      List.Forall₂
        (fun tick r => tick.clock = r.1 ∧ tick.fired.Nodup ∧ ∀ t, t ∈ tick.fired ↔ t ∈ r.2)
        (run expires w evs) (s.run expires evs)
  | [], _, _, _, _, _ => List.Forall₂.nil
  | .insertTimer t :: evs, w, s, h, hdue, hrqs => by
    refine run_refines (w := w.insertTimer t) (request_refines h) hdue ?_
    exact request_allows (by simpa [requests] using hrqs)
  | .removeTimer t :: evs, w, s, h, hdue, hrqs => by
    refine run_refines (w := w.removeTimer t) (request_refines h) hdue ?_
    exact request_allows (by simpa [requests] using hrqs)
  | .turnWheel :: evs, w, s, h, hdue, hrqs => by
    obtain ⟨hw, hnd, hfired⟩ :=
      turnWheel_refines h hdue ((allows_append _ _).1 hrqs).1
    refine List.Forall₂.cons ⟨hw.clock, hnd, hfired⟩ (run_refines hw tick_not_due ?_)
    rw [TimerService.tick_requests]
    exact tick_allows hrqs

end Wheeltimer

/-! ## When a timer fires -/

namespace TimerService

variable {T : Type*} [DecidableEq T] {expires : T → BitVec 32} {t : T}

/-- The timer `t` is pending once the queued requests are processed. -/
def Waiting (t : T) (s : TimerService T) : Prop :=
  t ∈ (s.processAll s.requests).pending

variable (s : TimerService T)

theorem waiting_request (rq : TimerReq T) :
    Waiting t (s.request rq) ↔ if rq.t = t then rq.insert = true else Waiting t s := by
  have hp := (processAll_congr s.requests (s.request rq) s rfl rfl rfl).1
  have hreq : Waiting t (s.request rq) ↔
      t ∈ (process ((s.request rq).processAll s.requests) rq).pending := by
    simp [Waiting, request, processAll]
  rw [hreq, process]
  obtain ⟨u, _ | _⟩ := rq
  · rcases eq_or_ne u t with rfl | hu
    · simp
    · simp [hp, Waiting, hu, hu.symm]
  · rcases eq_or_ne u t with rfl | hu
    · simp
    · simp [hp, Waiting, hu, hu.symm]

theorem mem_processAll_advance : t ∈ (s.advance.processAll s.requests).pending ↔ Waiting t s := by
  rw [(processAll_congr s.requests s.advance s rfl rfl rfl).1]
  rfl

theorem mem_tick_fired : t ∈ (s.tick expires).2 ↔ Waiting t s ∧ Due (expires t) (s.clock + 1) := by
  rw [tick, Finset.mem_filter, processAll_clock, mem_processAll_advance]
  rfl

theorem waiting_tick :
    Waiting t (s.tick expires).1 ↔ Waiting t s ∧ ¬ Due (expires t) (s.clock + 1) := by
  rw [Waiting, tick_requests]
  show t ∈ (s.tick expires).1.pending ↔ _
  rw [tick, Finset.mem_filter, processAll_clock, mem_processAll_advance]
  rfl

/-- A timer that is not waiting and is not inserted does not fire. -/
theorem run_not_fired : ∀ (evs : List (TimerEv T)) (s : TimerService T),
    ¬ Waiting t s → t ∉ inserts evs → ∀ r ∈ s.run expires evs, t ∉ r.2
  | [], _, _, _, _, hr => by simp [run] at hr
  | .insertTimer u :: evs, s, hw, hins, r, hr => by
    rw [inserts, mem_cons, not_or] at hins
    refine run_not_fired evs (s.request ⟨u, true⟩) ?_ hins.2 r hr
    rwa [waiting_request, if_neg (Ne.symm hins.1)]
  | .removeTimer u :: evs, s, hw, hins, r, hr => by
    refine run_not_fired evs (s.request ⟨u, false⟩) ?_ hins r hr
    rw [waiting_request]
    split_ifs
    · simp
    · exact hw
  | .turnWheel :: evs, s, hw, hins, r, hr => by
    rcases mem_cons.1 hr with rfl | hr
    · rw [mem_tick_fired]
      exact fun h => hw h.1
    · refine run_not_fired evs _ (fun h => hw ?_) hins r hr
      exact ((waiting_tick s).1 h).1

/-- The ticks after the events `pre` are those of a run from another state. -/
theorem exists_run_drop {evs : List (TimerEv T)} : ∀ (pre : List (TimerEv T)) (s : TimerService T),
    ∃ s' : TimerService T, (s.run expires (pre ++ evs)).drop (ticks pre) = s'.run expires evs
  | [], s => ⟨s, rfl⟩
  | .insertTimer t :: pre, s => exists_run_drop pre (s.request ⟨t, true⟩)
  | .removeTimer t :: pre, s => exists_run_drop pre (s.request ⟨t, false⟩)
  | .turnWheel :: pre, s => exists_run_drop pre (s.tick expires).1

/-- The tick, of those to come, in which a timer is first due. -/
structure DueAfter (e c : BitVec 32) (k : ℕ) : Prop where
  due : Due e (c + 1 + ofNat 32 k)
  first : ∀ i < k, ¬ Due e (c + 1 + ofNat 32 i)

variable {e c : BitVec 32}

theorem DueAfter.due_now (h : DueAfter e c 0) : Due e (c + 1) := by
  simpa using h.due

theorem DueAfter.not_due_now {k : ℕ} (h : DueAfter e c (k + 1)) : ¬ Due e (c + 1) := by
  simpa using h.first 0 (by omega)

theorem DueAfter.succ {k : ℕ} (h : DueAfter e c (k + 1)) : DueAfter e (c + 1) k := by
  have hshift : ∀ i, c + 1 + 1 + ofNat 32 i = c + 1 + ofNat 32 (i + 1) := by
    intro i
    rw [ofNat_add, add_assoc, BitVec.add_comm (ofNat 32 i)]
    rfl
  refine ⟨?_, fun i hi => ?_⟩
  · rw [hshift]
    exact h.due
  · rw [hshift]
    exact h.first (i + 1) (by omega)

/-- A waiting timer fires in the tick it is first due in, unless it is removed before. -/
theorem run_waiting : ∀ (evs : List (TimerEv T)) (s : TimerService T) (k : ℕ),
    Waiting t s → t ∉ inserts evs → DueAfter (expires t) s.clock k →
    (∀ p q, evs = p ++ .removeTimer t :: q → k < ticks p) →
      ∀ i r, (s.run expires evs)[i]? = some r → (t ∈ r.2 ↔ i = k)
  | [], _, _, _, _, _, _, i, r, hr => by simp [run] at hr
  | .insertTimer u :: evs, s, k, hw, hins, hk, hrem, i, r, hr => by
    rw [inserts, mem_cons, not_or] at hins
    refine run_waiting evs (s.request ⟨u, true⟩) k ?_ hins.2 hk (fun p q h => ?_) i r hr
    · rwa [waiting_request, if_neg (Ne.symm hins.1)]
    · exact hrem (.insertTimer u :: p) q (by rw [h]; rfl)
  | .removeTimer u :: evs, s, k, hw, hins, hk, hrem, i, r, hr => by
    have hu : u ≠ t := by
      rintro rfl
      exact absurd (hrem [] evs rfl) (by simp [ticks])
    refine run_waiting evs (s.request ⟨u, false⟩) k ?_ hins hk (fun p q h => ?_) i r hr
    · rwa [waiting_request, if_neg hu]
    · exact hrem (.removeTimer u :: p) q (by rw [h]; rfl)
  | .turnWheel :: evs, s, k, hw, hins, hk, hrem, 0, r, hr => by
    obtain rfl : ((s.tick expires).1.clock, (s.tick expires).2) = r := by simpa [run] using hr
    rw [mem_tick_fired, and_iff_right hw]
    rcases k with _ | k
    · exact iff_of_true hk.due_now rfl
    · exact iff_of_false hk.not_due_now (by omega)
  | .turnWheel :: evs, s, 0, hw, hins, hk, hrem, i + 1, r, hr => by
    have hgone : ¬ Waiting t (s.tick expires).1 := fun h => ((waiting_tick s).1 h).2 hk.due_now
    exact iff_of_false (run_not_fired evs _ hgone hins r (mem_of_getElem? hr)) (by omega)
  | .turnWheel :: evs, s, k + 1, hw, hins, hk, hrem, i + 1, r, hr => by
    have hk' : DueAfter (expires t) (s.tick expires).1.clock k := by
      rw [tick_clock]
      exact hk.succ
    rw [run_waiting evs (s.tick expires).1 k ((waiting_tick s).2 ⟨hw, hk.not_due_now⟩) hins hk'
      (fun p q h => ?_) i r hr]
    · omega
    · have := hrem (.turnWheel :: p) q (by rw [h]; rfl)
      simpa [ticks] using this

/-- A timer inserted once fires in the tick it is first due in, from the one that processes its
request on. -/
theorem run_fired : ∀ (pre post : List (TimerEv T)) (s : TimerService T) (k : ℕ),
    ¬ Waiting t s → t ∉ inserts pre → t ∉ inserts post →
    DueAfter (expires t) (s.clock + ofNat 32 (ticks pre)) k →
    (∀ p q, post = p ++ .removeTimer t :: q → k < ticks p) →
      ∀ i r, (s.run expires (pre ++ .insertTimer t :: post))[i]? = some r →
        (t ∈ r.2 ↔ i = ticks pre + k)
  | [], post, s, k, _, _, hpost, hk, hrem, i, r, hr => by
    have hw : Waiting t (s.request ⟨t, true⟩) := by simp [waiting_request]
    have hk' : DueAfter (expires t) (s.request ⟨t, true⟩).clock k := by
      simpa [ticks, request] using hk
    simpa [ticks] using run_waiting post _ k hw hpost hk' hrem i r hr
  | .insertTimer u :: pre, post, s, k, hw, hpre, hpost, hk, hrem, i, r, hr => by
    rw [inserts, mem_cons, not_or] at hpre
    refine run_fired pre post (s.request ⟨u, true⟩) k ?_ hpre.2 hpost hk hrem i r hr
    rwa [waiting_request, if_neg (Ne.symm hpre.1)]
  | .removeTimer u :: pre, post, s, k, hw, hpre, hpost, hk, hrem, i, r, hr => by
    refine run_fired pre post (s.request ⟨u, false⟩) k ?_ hpre hpost hk hrem i r hr
    rw [waiting_request]
    split_ifs
    · simp
    · exact hw
  | .turnWheel :: pre, post, s, k, hw, hpre, hpost, hk, hrem, 0, r, hr => by
    obtain rfl : ((s.tick expires).1.clock, (s.tick expires).2) = r := by simpa [run] using hr
    rw [mem_tick_fired]
    exact iff_of_false (fun h => hw h.1) (by simp [ticks]; omega)
  | .turnWheel :: pre, post, s, k, hw, hpre, hpost, hk, hrem, i + 1, r, hr => by
    have hk' : DueAfter (expires t) ((s.tick expires).1.clock + ofNat 32 (ticks pre)) k := by
      rw [tick_clock, BitVec.add_assoc, BitVec.add_comm 1]
      simpa [ticks, ofNat_add] using hk
    have hw' : ¬ Waiting t (s.tick expires).1 := fun h => hw ((waiting_tick s).1 h).1
    rw [run_fired pre post _ k hw' hpre hpost hk' hrem i r hr, ticks]
    omega

theorem run_clock : ∀ (evs : List (TimerEv T)) (s : TimerService T) (i : ℕ)
    (r : BitVec 32 × Finset T), (s.run expires evs)[i]? = some r →
      r.1 = s.clock + BitVec.ofNat 32 (i + 1)
  | [], _, _, _, hr => by simp [run] at hr
  | .insertTimer u :: evs, s, i, r, hr => run_clock evs (s.request ⟨u, true⟩) i r hr
  | .removeTimer u :: evs, s, i, r, hr => run_clock evs (s.request ⟨u, false⟩) i r hr
  | .turnWheel :: evs, s, 0, r, hr => by
    obtain rfl : ((s.tick expires).1.clock, (s.tick expires).2) = r := by simpa [run] using hr
    exact tick_clock expires s
  | .turnWheel :: evs, s, i + 1, r, hr => by
    rw [run_clock evs (s.tick expires).1 i r hr, tick_clock, BitVec.add_assoc,
      BitVec.ofNat_add (i + 1), BitVec.add_comm 1]
    rfl

theorem length_run : ∀ (evs : List (TimerEv T)) (s : TimerService T),
    (s.run expires evs).length = ticks evs
  | [], _ => rfl
  | .insertTimer u :: evs, s => length_run evs (s.request ⟨u, true⟩)
  | .removeTimer u :: evs, s => length_run evs (s.request ⟨u, false⟩)
  | .turnWheel :: evs, s => congrArg (· + 1) (length_run evs (s.tick expires).1)

end TimerService

/-! ## The wheel fires every timer once -/

open Wheeltimer

section Exact

variable {T : Type*} [DecidableEq T]

theorem TimerEv.inserts_append : ∀ (p q : List (TimerEv T)),
    inserts (p ++ q) = inserts p ++ inserts q
  | [], _ => rfl
  | .insertTimer t :: p, q => congrArg (t :: ·) (inserts_append p q)
  | .removeTimer _ :: p, q => inserts_append p q
  | .turnWheel :: p, q => inserts_append p q

theorem TimerEv.removes_append : ∀ (p q : List (TimerEv T)),
    removes (p ++ q) = removes p ++ removes q
  | [], _ => rfl
  | .insertTimer _ :: p, q => removes_append p q
  | .removeTimer t :: p, q => congrArg (t :: ·) (removes_append p q)
  | .turnWheel :: p, q => removes_append p q

/-- The service allows the requests of a run that keeps to the callers' rules. -/
theorem TimerEv.Legal.allows {evs : List (TimerEv T)} (h : Legal evs) :
    ∀ (rest pre : List (TimerEv T)) (s : TimerService T), evs = pre ++ rest →
      s.inserted = (inserts pre).toFinset → s.removed = (removes pre).toFinset →
        s.Allows (requests rest)
  | [], _, _, _, _, _ => trivial
  | .insertTimer t :: rest, pre, s, he, hi, hr => by
    have hnd := h.insert_once
    rw [he, inserts_append, inserts] at hnd
    have hnot : t ∉ inserts pre := fun ht =>
      (List.nodup_append.1 hnd).2.2 t ht t (by simp) rfl
    refine ⟨by simpa [hi] using hnot, ?_⟩
    refine allows h rest (pre ++ [.insertTimer t]) _ (by simp [he]) ?_ ?_
    · ext u
      simp [TimerService.process, hi, inserts_append, inserts]
    · simpa [TimerService.process, removes_append, removes] using hr
  | .removeTimer t :: rest, pre, s, he, hi, hr => by
    have hnd := h.remove_once
    rw [he, removes_append, removes] at hnd
    have hnot : t ∉ removes pre := fun ht =>
      (List.nodup_append.1 hnd).2.2 t ht t (by simp) rfl
    refine ⟨⟨by simpa [hi] using h.remove_after pre t rest he, by simpa [hr] using hnot⟩, ?_⟩
    refine allows h rest (pre ++ [.removeTimer t]) _ (by simp [he]) ?_ ?_
    · simpa [TimerService.process, inserts_append, inserts] using hi
    · ext u
      simp [TimerService.process, hr, removes_append, removes]
  | .turnWheel :: rest, pre, s, he, hi, hr => by
    refine allows h rest (pre ++ [.turnWheel]) s (by simp [he]) ?_ ?_
    · simpa [inserts_append, inserts] using hi
    · simpa [removes_append, removes] using hr

/-- The clock of the tick with index `j` of a run from the start. -/
def clockAt (j : ℕ) : BitVec 32 :=
  ofNat 32 (j + 1)

/-- The tick in which a timer is to fire whose request is processed in tick `n` : that tick if it is
late there, or else the first one whose clock is `e`. -/
def FiresIn (e : BitVec 32) (n j : ℕ) : Prop :=
  if lessTs e (clockAt n) then j = n
  else n ≤ j ∧ clockAt j = e ∧ ∀ i, n ≤ i → i < j → clockAt i ≠ e

theorem clockAt_eq (n : ℕ) : clockAt n = ofNat 32 n + 1 :=
  ofNat_add n 1

theorem clockAt_add (n i : ℕ) : clockAt (n + i) = clockAt n + ofNat 32 i := by
  rw [clockAt, clockAt, ← ofNat_add, Nat.add_right_comm]

/-- A timer that is not late stays so up to the tick whose clock is its `expires`. -/
theorem lessTs_clockAt {e : BitVec 32} {n : ℕ} (hfut : lessTs e (clockAt n) = false) :
    ∀ i, (∀ m < i, clockAt (n + m) ≠ e) → lessTs e (clockAt (n + i)) = false
  | 0, _ => hfut
  | i + 1, hne => by
    have ih := lessTs_clockAt hfut i fun m hm => hne m (by omega)
    rw [← Nat.add_assoc, clockAt_add]
    exact lessTs_succ (hne i (by omega)).symm ih

theorem FiresIn.dueAfter {e : BitVec 32} {n j : ℕ} (h : FiresIn e n j) :
    n ≤ j ∧ TimerService.DueAfter e (ofNat 32 n) (j - n) := by
  unfold FiresIn at h
  split_ifs at h with hlate
  · subst h
    refine ⟨le_rfl, ?_, by simp⟩
    rw [← clockAt_eq, ← clockAt_add, Nat.add_sub_cancel' le_rfl]
    exact .inr hlate
  · obtain ⟨hle, he, hfirst⟩ := h
    refine ⟨hle, ?_, fun i hi => ?_⟩
    · rw [← clockAt_eq, ← clockAt_add, Nat.add_sub_cancel' hle]
      exact .inl he.symm
    · rw [← clockAt_eq, ← clockAt_add, not_due_iff]
      have hne : ∀ m < j - n, clockAt (n + m) ≠ e := fun m hm =>
        hfirst (n + m) (by omega) (by omega)
      exact ⟨(hne i hi).symm, lessTs_clockAt (by simpa using hlate) i fun m hm => hne m (by omega)⟩

/-- Every timer has its tick. -/
theorem exists_firesIn (e : BitVec 32) (n : ℕ) : ∃ j, FiresIn e n j := by
  unfold FiresIn
  split_ifs
  · exact ⟨n, rfl⟩
  · have hex : ∃ k, clockAt (n + k) = e := by
      refine ⟨(e - clockAt n).toNat, ?_⟩
      rw [clockAt_add, BitVec.ofNat_toNat, BitVec.setWidth_eq, add_comm, BitVec.sub_add_cancel]
    refine ⟨n + Nat.find hex, by omega, Nat.find_spec hex, fun i hi hlt heq => ?_⟩
    have hmin := Nat.find_min hex (m := i - n) (by omega)
    rw [Nat.add_sub_cancel' hi] at hmin
    exact hmin heq

/-- A tick of a run from the start is the tick of the service with the same index. -/
theorem run_init_refines (expires : T → BitVec 32) {evs : List (TimerEv T)}
    (hlegal : TimerEv.Legal evs) :
    List.Forall₂
      (fun tick r => tick.clock = r.1 ∧ tick.fired.Nodup ∧ ∀ t, t ∈ tick.fired ↔ t ∈ r.2)
      (run expires .init evs) (TimerService.init.run expires evs) :=
  run_refines init_refines (by simp [TimerService.init])
    (hlegal.allows evs [] TimerService.init rfl rfl rfl)

theorem forall₂_getElem? {α β : Type*} {R : α → β → Prop} {l : List α} {l' : List β}
    (h : List.Forall₂ R l l') {i : ℕ} {x : α} (hx : l[i]? = some x) :
    ∃ y, l'[i]? = some y ∧ R x y := by
  obtain ⟨hi, rfl⟩ := List.getElem?_eq_some_iff.1 hx
  have hi' : i < l'.length := h.length_eq ▸ hi
  exact ⟨l'[i], List.getElem?_eq_getElem hi', (List.forall₂_iff_get.1 h).2 i hi hi'⟩

/-- Every timer that is inserted once, and not removed before it fires, is fired once : in the tick
whose clock is its `expires`, or in the one that processes its request if it is late there. -/
theorem fired_exactly_once (expires : T → BitVec 32) {pre post : List (TimerEv T)} {t : T}
    (hlegal : TimerEv.Legal (pre ++ .insertTimer t :: post)) :
    let ticks := run expires .init (pre ++ .insertTimer t :: post)
    ticks.length = TimerEv.ticks (pre ++ .insertTimer t :: post) ∧
      ∃ j, FiresIn (expires t) (TimerEv.ticks pre) j ∧
        ((∀ p q, post = p ++ .removeTimer t :: q → j < TimerEv.ticks pre + TimerEv.ticks p) →
          ∀ i tick, ticks[i]? = some tick →
            tick.clock = clockAt i ∧ tick.fired.count t = if i = j then 1 else 0) := by
  have hrun := run_init_refines expires hlegal
  obtain ⟨j, hj⟩ := exists_firesIn (expires t) (TimerEv.ticks pre)
  obtain ⟨hle, hdue⟩ := hj.dueAfter
  refine ⟨hrun.length_eq.trans (TimerService.length_run _ _), j, hj, fun hrem i tick htick => ?_⟩
  obtain ⟨r, hr, hclock, hnd, hfired⟩ := forall₂_getElem? hrun htick
  have hins := hlegal.insert_once
  rw [TimerEv.inserts_append, TimerEv.inserts] at hins
  obtain ⟨-, hpost, hdisj⟩ := List.nodup_append.1 hins
  have honce : t ∈ r.2 ↔ i = TimerEv.ticks pre + (j - TimerEv.ticks pre) := by
    refine TimerService.run_fired pre post .init _ ?_ ?_ (nodup_cons.1 hpost).1 ?_ ?_ i r hr
    · simp [TimerService.Waiting, TimerService.init, TimerService.processAll]
    · exact fun h => hdisj t h t (by simp) rfl
    · simpa [TimerService.init] using hdue
    · intro p q h
      have := hrem p q h
      omega
  refine ⟨?_, ?_⟩
  · rw [hclock, TimerService.run_clock _ _ i r hr]
    simp [TimerService.init, clockAt]
  · rw [hnd.count]
    simp only [hfired t, honce, Nat.add_sub_cancel' hle]

/-- A timer with `expires` 3, inserted after the first tick and removed after the third. -/
theorem fired_exactly_once_three : let evs : List (TimerEv ℕ) :=
      [.turnWheel, .insertTimer 0, .turnWheel, .turnWheel, .removeTimer 0, .turnWheel]
    let ticks := run (fun _ => 3#32) .init evs
    TimerEv.Legal evs ∧ ∀ i tick, ticks[i]? = some tick →
      tick.clock = clockAt i ∧ tick.fired.count 0 = if i = 2 then 1 else 0 := by
  intro evs
  have hlegal : TimerEv.Legal evs := by
    refine ⟨by decide, by decide, fun pre t post h => ?_⟩
    rcases pre with _ | ⟨a, _ | ⟨b, _ | ⟨c, _ | ⟨d, _ | ⟨e, _ | ⟨f, pre⟩⟩⟩⟩⟩⟩ <;> simp [evs] at h
    obtain ⟨rfl, rfl, rfl, rfl, rfl, -⟩ := h
    decide
  obtain ⟨-, j, hj, hfired⟩ := fired_exactly_once (fun _ : ℕ => 3#32)
    (show TimerEv.Legal ([.turnWheel] ++ .insertTimer 0 ::
      [.turnWheel, .turnWheel, .removeTimer 0, .turnWheel]) from hlegal)
  obtain rfl : j = 2 := by
    obtain ⟨hle, he, hfirst⟩ := hj
    rcases Nat.lt_trichotomy j 2 with h | h | h
    · obtain rfl : j = 1 := by simp [TimerEv.ticks] at hle; omega
      exact absurd he (by decide)
    · exact h
    · exact absurd rfl (hfirst 2 (by decide) h)
  refine ⟨hlegal, hfired fun p q h => ?_⟩
  rcases p with _ | ⟨a, _ | ⟨b, _ | ⟨c, _ | ⟨d, p⟩⟩⟩⟩ <;> simp at h
  obtain ⟨rfl, rfl, -⟩ := h
  decide

/-- A timer does not fire after its removal, also if it is due in the tick that removes it. -/
theorem removed_not_fired (expires : T → BitVec 32) {pre post : List (TimerEv T)} {t : T}
    (hlegal : Legal (pre ++ .removeTimer t :: post)) :
    ∀ tick ∈ (run expires .init (pre ++ .removeTimer t :: post)).drop (ticks pre),
      t ∉ tick.fired := by
  intro tick htick
  have hins := hlegal.insert_once
  rw [inserts_append] at hins
  have hpost : t ∉ inserts post := fun hmem =>
    (List.nodup_append.1 hins).2.2 t (hlegal.remove_after pre t post rfl) t hmem rfl
  obtain ⟨i, hi⟩ := mem_iff_getElem?.1 htick
  obtain ⟨r, hr, -, -, hfired⟩ :=
    forall₂_getElem? (forall₂_drop _ (run_init_refines expires hlegal)) hi
  obtain ⟨s, hs⟩ := TimerService.exists_run_drop pre .init
  rw [hs] at hr
  rw [hfired]
  refine TimerService.run_not_fired post (s.request ⟨t, false⟩) ?_ hpost r (mem_of_getElem? hr)
  simp [TimerService.waiting_request]

theorem removed_not_fired_due :
    let ticks := run (fun _ => 1#32) .init [.insertTimer 0, .removeTimer 0, .turnWheel]
    ticks.length = 1 ∧ ∀ tick ∈ ticks, 0 ∉ tick.fired := by
  refine ⟨rfl, @removed_not_fired ℕ _ _ [.insertTimer 0] [.turnWheel] 0
    ⟨by decide, by decide, fun pre t post h => ?_⟩⟩
  rcases pre with _ | ⟨a, _ | ⟨b, _ | ⟨c, pre⟩⟩⟩ <;> simp at h
  obtain ⟨rfl, rfl, -⟩ := h
  decide

end Exact

end Sems
