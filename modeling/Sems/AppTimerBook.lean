import Sems.AppTimer
import Sems.WheelTimerRefine

/-!
# The book of the application timers

`TimerBook` says what the application timers are for : which timer is set under a key, and a timer
service that fires it. A call retires a timer (`TimerBook.retire`) and creates another
(`TimerBook.create`), and its requests reach the service one by one (`TimerBook.request`).

`Calls` and `Served` are the invariant of a book. A timer that was created is set, was replaced or
removed, or has had its timeout (`Calls.once`), and its requests are its insertion and, if it was
replaced or removed, its removal (`Calls.trace`). The service holds every timer that is set and was
inserted, or its callback is to come (`Served.pending`).
-/

set_option linter.unusedSectionVars false

namespace Sems

open List Function TimerObj
open Function (update)

/-! ## The service after its requests -/

namespace TimerService

variable {T : Type*} [DecidableEq T] {s : TimerService T} {rq : TimerReq T} {t : T}

/-- The service once the queued requests are processed. -/
def settled (s : TimerService T) : TimerService T :=
  s.processAll s.requests

theorem settled_request :
    (s.request rq).settled = process ((s.request rq).processAll s.requests) rq := by
  simp [settled, request, processAll]

theorem mem_settled_inserted_request : t ∈ (s.request rq).settled.inserted ↔
    rq.t = t ∧ rq.insert = true ∨ t ∈ s.settled.inserted := by
  have hi := (processAll_congr s.requests (s.request rq) s rfl rfl rfl).2.1
  rw [settled_request, process]
  split_ifs with h
  · simp [hi, settled, h, eq_comm]
  · simp [hi, settled, h]

theorem mem_settled_removed_request : t ∈ (s.request rq).settled.removed ↔
    rq.t = t ∧ rq.insert = false ∨ t ∈ s.settled.removed := by
  have hr := (processAll_congr s.requests (s.request rq) s rfl rfl rfl).2.2
  rw [settled_request, process]
  split_ifs with h
  · simp [hr, settled, h]
  · simp [hr, settled, h, eq_comm]

theorem settled_tick (expires : T → BitVec 32) (s : TimerService T) :
    (s.tick expires).1.settled.inserted = s.settled.inserted ∧
      (s.tick expires).1.settled.removed = s.settled.removed ∧
      (s.tick expires).1.removed = s.settled.removed := by
  obtain ⟨-, hi, hr⟩ := processAll_congr s.requests s.advance s rfl rfl rfl
  have hs : (s.tick expires).1.settled = (s.tick expires).1 := by
    rw [settled, tick_requests]
    rfl
  rw [hs]
  exact ⟨hi, hr, hr⟩

/-- A legal list of requests removes a timer once. -/
theorem removed_processAll_count : ∀ (rqs : List (TimerReq T)) {s : TimerService T},
    s.Allows rqs → (if t ∈ (s.processAll rqs).removed then 1 else 0) =
      (if t ∈ s.removed then 1 else 0) + (removals rqs).count t
  | [], _, _ => rfl
  | ⟨u, insert⟩ :: rqs, s, ⟨hrq, hrqs⟩ => by
    show (if t ∈ ((s.process ⟨u, insert⟩).processAll rqs).removed then 1 else 0) = _
    rw [removed_processAll_count rqs hrqs]
    cases insert with
    | true => simp [process, removals]
    | false =>
      have hu : u ∉ s.removed := hrq.2
      rcases eq_or_ne t u with rfl | hne
      · simp [process, removals, hu, Nat.add_comm]
      · simp [process, removals, hne, hne.symm]

end TimerService

/-! ## Requests yet to be made -/

namespace TimerTrack

variable {Q D : Type*} [DecidableEq Q] [DecidableEq D]

/-- The requests for a timer that are yet to be queued, as insertions or removals. -/
def left (tr : TimerTrack Q D) (t : TimerObj Q D) : List Bool :=
  ((tr.reqs t.key.mutex).filter fun rq => rq.t = t).map TimerReq.insert

variable {tr : TimerTrack Q D} {m : TimerMutex} {rq : TimerReq (TimerObj Q D)}
  {rest : List (TimerReq (TimerObj Q D))} {t : TimerObj Q D}

theorem left_push : (tr.push rq).left t = tr.left t ++ if rq.t = t then [rq.insert] else [] := by
  unfold left push
  dsimp only
  by_cases hm : t.key.mutex = rq.t.key.mutex
  · rw [hm, update_self, filter_append, map_append]
    split_ifs with ht <;> simp [ht]
  · have ht : rq.t ≠ t := fun h => hm (by rw [h])
    rw [update_of_ne hm, if_neg ht, append_nil]

theorem left_request (hm : rq.t.key.mutex = m) (hreqs : tr.reqs m = rq :: rest) :
    tr.left t = (if rq.t = t then [rq.insert] else []) ++ (tr.request m rq rest).left t := by
  subst hm
  unfold left request
  dsimp only
  by_cases hm : t.key.mutex = rq.t.key.mutex
  · rw [hm, update_self, hreqs]
    split_ifs with ht <;> simp [ht]
  · have ht : rq.t ≠ t := fun h => hm (by rw [h])
    rw [update_of_ne hm, if_neg ht, nil_append]

end TimerTrack

/-! ## The book -/

structure TimerBook (Q D : Type*) where
  current : TimerKey Q D → Option (TimerObj Q D)
  service : TimerService (TimerObj Q D)
  track : TimerTrack Q D

open TimerService

namespace TimerBook

variable {Q D : Type*} [DecidableEq Q] [DecidableEq D]

def init : TimerBook Q D :=
  ⟨fun _ => none, .init, .init⟩

variable (b : TimerBook Q D) (t : TimerObj Q D)

/-- The timer is replaced or removed. -/
def retire : TimerBook Q D :=
  { b with current := update b.current t.key none, track := b.track.retire t }

/-- A new timer is set. -/
def create : TimerBook Q D :=
  { b with current := update b.current t.key (some t), track := b.track.create t }

/-- A request reaches the service. -/
def request (m : TimerMutex) (rq : TimerReq (TimerObj Q D))
    (rest : List (TimerReq (TimerObj Q D))) : TimerBook Q D :=
  { b with service := b.service.request rq, track := b.track.request m rq rest }

/-- A tick of the service, with the timers it fires in some order. -/
def turn (fired : List (TimerObj Q D)) : TimerBook Q D :=
  { b with
    service := (b.service.tick expires).1
    track := b.track.turn fired (removals b.service.requests) }

/-- The callback of a timer that is set. -/
def timeout (rest : List (TimerObj Q D)) : TimerBook Q D :=
  { b with
    current := update b.current t.key none
    track := { b.track with firing := rest }.timeout t }

/-- The callback of a timer that is not set any more. -/
def skip (rest : List (TimerObj Q D)) : TimerBook Q D :=
  { b with track := { b.track with firing := rest } }

/-- The requests for a timer that have reached the service, as insertions or removals. -/
def made : List Bool :=
  (if t ∈ b.service.settled.inserted then [true] else []) ++
    if t ∈ b.service.settled.removed then [false] else []

/-- The requests for a timer of this book. -/
def life : List Bool :=
  if t ∈ b.track.superseded then [true, false] else if t ∈ b.track.created then [true] else []

/-- What the calls have done. -/
structure Calls (b : TimerBook Q D) : Prop where
  mutex : ∀ m, ∀ rq ∈ b.track.reqs m, rq.t.key.mutex = m
  serial : ∀ t ∈ b.track.created, t.serial < b.track.created.length
  keyed : ∀ k t, b.current k = some t → t.key = k
  trace : ∀ t, b.made t ++ b.track.left t = b.life t
  once : ∀ t, b.track.superseded.count t + b.track.timeouts.count t +
    (if b.current t.key = some t then 1 else 0) = if t ∈ b.track.created then 1 else 0

/-- What the service has done, and is to do. -/
structure Served (b : TimerBook Q D) : Prop where
  allows : b.service.Allows b.service.requests
  clock : b.service.clock = BitVec.ofNat 32 b.track.turns
  waiting : ∀ t, Waiting t b.service →
    t ∈ b.service.settled.inserted ∧ t ∉ b.service.settled.removed ∧ t ∉ b.track.timeouts
  firing : ∀ t ∈ b.track.firing, t ∈ b.service.settled.inserted ∧ t ∉ b.service.removed ∧
    t ∉ b.track.timeouts ∧ ¬ Waiting t b.service
  firingOnce : b.track.firing.Nodup
  fired : ∀ t ∈ b.track.timeouts, t ∈ b.service.settled.inserted
  pending : ∀ t ∈ b.service.settled.inserted, t ∉ b.track.superseded → t ∉ b.track.timeouts →
    Waiting t b.service ∨ t ∈ b.track.firing
  disposed : ∀ t, b.track.disposed.count t =
    b.track.timeouts.count t + if t ∈ b.service.removed then 1 else 0
  requested : ∀ t, t ∈ b.service.settled.inserted ↔ ∃ n, (t, n) ∈ b.track.requested
  notYet : ∀ t n, (t, n) ∈ b.track.requested → Waiting t b.service →
    ∀ i, n ≤ i → i < b.track.turns → ¬ Due t.expires (clockAt i)

variable {b : TimerBook Q D} {t : TimerObj Q D}

/-! ## Calls -/

theorem mutex_push (h : ∀ m, ∀ rq ∈ b.track.reqs m, rq.t.key.mutex = m)
    {rq : TimerReq (TimerObj Q D)} : ∀ m, ∀ rq' ∈ (b.track.push rq).reqs m,
      rq'.t.key.mutex = m := by
  intro m
  show ∀ rq' ∈ update b.track.reqs rq.t.key.mutex _ m, _
  by_cases hm : m = rq.t.key.mutex
  · subst hm
    rw [update_self]
    intro rq' hrq'
    rcases mem_append.1 hrq' with hrq' | hrq'
    · exact h _ rq' hrq'
    · rw [mem_singleton.1 hrq']
  · rw [update_of_ne hm]
    exact h m

variable {x : Option (TimerObj Q D)}

theorem keyed_update (h : Calls b) (hx : ∀ u, x = some u → u.key = t.key) :
    ∀ k u, update b.current t.key x k = some u → u.key = k := by
  intro k u
  by_cases hk : k = t.key
  · subst hk
    rw [update_self]
    exact hx u
  · rw [update_of_ne hk]
    exact h.keyed k u

/-- Another timer is set, or not, as it was. -/
theorem update_eq_some_iff {u : TimerObj Q D} (hold : b.current t.key ≠ some u)
    (hnew : x ≠ some u) :
    update b.current t.key x u.key = some u ↔ b.current u.key = some u := by
  by_cases hk : u.key = t.key
  · rw [hk, update_self]
    exact iff_of_false hnew hold
  · rw [update_of_ne hk]

/-- An object leaves the map of its key, and is counted elsewhere instead. -/
theorem Calls.once_leave (h : Calls b) (ht : b.current t.key = some t) {u : TimerObj Q D} :
    b.track.superseded.count u + b.track.timeouts.count u + [t].count u +
      (if update b.current t.key none u.key = some u then 1 else 0) =
        if u ∈ b.track.created then 1 else 0 := by
  have honce := h.once u
  rcases eq_or_ne t u with rfl | hne
  · rw [if_pos ht] at honce
    rw [count_singleton_self, update_self, if_neg (by simp)]
    omega
  · have hold : b.current t.key ≠ some u := by rw [ht]; simpa using hne
    simp only [update_eq_some_iff hold (Option.some_ne_none u).symm, count_singleton,
      beq_iff_eq, hne, if_false, Nat.add_zero]
    exact honce

theorem Calls.retire (h : Calls b) (ht : b.current t.key = some t) : Calls (b.retire t) := by
  have honce := h.once t
  split_ifs at honce with hcreated
  have hsup : t ∉ b.track.superseded := count_eq_zero.1 (by omega)
  refine ⟨mutex_push h.mutex, h.serial, keyed_update h (by simp), fun u => ?_, fun u => ?_⟩
  · show b.made u ++ (b.track.push ⟨t, false⟩).left u = if u ∈ b.track.superseded ++ [t] then
      [true, false] else if u ∈ b.track.created then [true] else []
    rw [TimerTrack.left_push, ← append_assoc, h.trace u]
    rcases eq_or_ne t u with rfl | hne
    · simp [life, hsup, hcreated]
    · simp [life, hne, hne.symm]
  · show (b.track.superseded ++ [t]).count u + b.track.timeouts.count u +
      (if update b.current t.key none u.key = some u then 1 else 0) =
        if u ∈ b.track.created then 1 else 0
    rw [count_append, Nat.add_right_comm (b.track.superseded.count u)]
    exact h.once_leave ht

theorem Calls.create (h : Calls b) (hkey : b.current t.key = none)
    (hserial : t.serial = b.track.created.length) : Calls (b.create t) := by
  have hcreated : t ∉ b.track.created := fun hc => by
    have := h.serial t hc
    omega
  have honce := h.once t
  rw [if_neg hcreated] at honce
  have hsup : t ∉ b.track.superseded := count_eq_zero.1 (by omega)
  have htimeout : t ∉ b.track.timeouts := count_eq_zero.1 (by omega)
  refine ⟨mutex_push h.mutex, fun u hu => ?_, keyed_update h fun u hu => ?_, fun u => ?_,
    fun u => ?_⟩
  · show u.serial < (b.track.created ++ [t]).length
    rw [length_append, length_singleton]
    rcases mem_append.1 hu with hu | hu
    · exact Nat.lt_succ_of_lt (h.serial u hu)
    · rw [mem_singleton.1 hu, hserial]
      exact Nat.lt_succ_self _
  · rw [Option.some.inj hu]
  · show b.made u ++ (b.track.push ⟨t, true⟩).left u = if u ∈ b.track.superseded then
      [true, false] else if u ∈ b.track.created ++ [t] then [true] else []
    rw [TimerTrack.left_push, ← append_assoc, h.trace u]
    rcases eq_or_ne t u with rfl | hne
    · simp [life, hsup, hcreated]
    · simp [life, hne, hne.symm]
  · have honce := h.once u
    show b.track.superseded.count u + b.track.timeouts.count u +
      (if update b.current t.key (some t) u.key = some u then 1 else 0) =
        if u ∈ b.track.created ++ [t] then 1 else 0
    rcases eq_or_ne t u with rfl | hne
    · simp [count_eq_zero.2 hsup, count_eq_zero.2 htimeout]
    · have hold : b.current t.key ≠ some u := by rw [hkey]; simp
      have hmem : u ∈ b.track.created ++ [t] ↔ u ∈ b.track.created := by simp [hne.symm]
      simp only [update_eq_some_iff hold (fun he => hne (Option.some.inj he)), hmem]
      exact honce

theorem Served.retire (h : Served b) : Served (b.retire t) :=
  { h with
    pending := fun u hu hsup => h.pending u hu fun hs => hsup (mem_append_left _ hs) }

theorem Served.create (h : Served b) : Served (b.create t) :=
  { h with }

/-! ## Requests -/

variable {m : TimerMutex} {rq : TimerReq (TimerObj Q D)} {rest : List (TimerReq (TimerObj Q D))}

/-- The next request of a mutex inserts a timer the service does not know, or removes one it knows
that was replaced or removed. -/
theorem Calls.next (h : Calls b) (hreqs : b.track.reqs m = rq :: rest) :
    rq.t ∉ b.service.settled.removed ∧
      (rq.insert = true ∧ rq.t ∉ b.service.settled.inserted ∨
        rq.insert = false ∧ rq.t ∈ b.service.settled.inserted ∧ rq.t ∈ b.track.superseded) := by
  have htrace := h.trace rq.t
  have hmutex := h.mutex m rq (by rw [hreqs]; simp)
  rw [TimerTrack.left_request hmutex hreqs, if_pos rfl] at htrace
  unfold made life at htrace
  by_cases hi : rq.t ∈ b.service.settled.inserted <;>
    by_cases hr : rq.t ∈ b.service.settled.removed <;>
    by_cases hs : rq.t ∈ b.track.superseded <;>
    by_cases hc : rq.t ∈ b.track.created <;>
    cases hrq : rq.insert <;> simp_all

theorem made_request (hnext : rq.t ∉ b.service.settled.removed ∧
      (rq.insert = true ∧ rq.t ∉ b.service.settled.inserted ∨
        rq.insert = false ∧ rq.t ∈ b.service.settled.inserted ∧ rq.t ∈ b.track.superseded)) :
    (b.request m rq rest).made t = b.made t ++ if rq.t = t then [rq.insert] else [] := by
  unfold made
  show (if t ∈ (b.service.request rq).settled.inserted then [true] else []) ++
    (if t ∈ (b.service.request rq).settled.removed then [false] else []) = _
  simp only [mem_settled_inserted_request, mem_settled_removed_request]
  rcases eq_or_ne rq.t t with rfl | hne
  · obtain ⟨hr, ⟨hrq, hi⟩ | ⟨hrq, hi, -⟩⟩ := hnext <;> simp [hr, hrq, hi]
  · simp [hne]

theorem Calls.request (h : Calls b) (hreqs : b.track.reqs m = rq :: rest) :
    Calls (b.request m rq rest) := by
  have hmutex := h.mutex m rq (by rw [hreqs]; simp)
  refine { h with mutex := fun m' => ?_, trace := fun u => ?_ }
  · show ∀ rq' ∈ update b.track.reqs m rest m', _
    by_cases hm : m' = m
    · subst hm
      rw [update_self]
      exact fun rq' hrq' => h.mutex m' rq' (by rw [hreqs]; exact mem_cons_of_mem _ hrq')
    · rw [update_of_ne hm]
      exact h.mutex m'
  · have htrace := h.trace u
    rw [TimerTrack.left_request hmutex hreqs, ← append_assoc] at htrace
    rw [made_request (h.next hreqs)]
    exact htrace

theorem allows_request (h : b.service.Allows b.service.requests)
    (hrq : b.service.settled.Allows [rq]) :
    (b.service.request rq).Allows (b.service.request rq).requests := by
  have hall := (allows_append _ _).2 ⟨h, hrq⟩
  exact allows_congr (s := b.service) _ rfl rfl hall

/-- The insertion of a timer reaches the service. -/
theorem Served.insert (h : Served b) (hrq : rq.insert = true)
    (hi : rq.t ∉ b.service.settled.inserted) (hr : rq.t ∉ b.service.settled.removed) :
    Served (b.request m rq rest) := by
  have hinserted : ∀ u, u ∈ (b.service.request rq).settled.inserted ↔
      rq.t = u ∨ u ∈ b.service.settled.inserted := fun u => by
    simp [mem_settled_inserted_request, hrq]
  have hremoved : ∀ u, u ∈ (b.service.request rq).settled.removed ↔
      u ∈ b.service.settled.removed := fun u => by
    simp [mem_settled_removed_request, hrq]
  have hwaiting : ∀ u, Waiting u (b.service.request rq) ↔
      rq.t = u ∨ Waiting u b.service := fun u => by
    rw [waiting_request]
    split_ifs with hu <;> simp [hu, hrq]
  have hrequested : ∀ u n, (u, n) ∈ (b.track.request m rq rest).requested ↔
      (u, n) ∈ b.track.requested ∨ u = rq.t ∧ n = b.track.turns := fun u n => by
    simp [TimerTrack.request, hrq]
  exact
    { h with
      allows := allows_request h.allows (by simp [Allows, hrq, hi])
      waiting := fun u hu => by
        rw [show (b.request m rq rest).service = b.service.request rq from rfl, hinserted, hremoved]
        rcases (hwaiting u).1 hu with rfl | hu
        · exact ⟨.inl rfl, hr, fun ht => hi (h.fired _ ht)⟩
        · exact ⟨.inr (h.waiting u hu).1, (h.waiting u hu).2⟩
      firing := fun u hu => by
        obtain ⟨hui, hur, hut, huw⟩ := h.firing u hu
        refine ⟨(hinserted u).2 (.inr hui), hur, hut, fun hw => ?_⟩
        rcases (hwaiting u).1 hw with rfl | hw
        · exact hi hui
        · exact huw hw
      fired := fun u hu => (hinserted u).2 (.inr (h.fired u hu))
      pending := fun u hu hs ht => by
        rcases (hinserted u).1 hu with rfl | hu
        · exact .inl ((hwaiting _).2 (.inl rfl))
        · exact (h.pending u hu hs ht).imp_left fun hw => (hwaiting u).2 (.inr hw)
      requested := fun u => by
        refine (hinserted u).trans ⟨?_, ?_⟩
        · rintro (rfl | hu)
          · exact ⟨_, (hrequested _ _).2 (.inr ⟨rfl, rfl⟩)⟩
          · obtain ⟨n, hn⟩ := (h.requested u).1 hu
            exact ⟨n, (hrequested u n).2 (.inl hn)⟩
        · rintro ⟨n, hn⟩
          rcases (hrequested u n).1 hn with hn | ⟨rfl, -⟩
          · exact .inr ((h.requested u).2 ⟨n, hn⟩)
          · exact .inl rfl
      notYet := fun u n hn hw i hle hlt => by
        rcases (hrequested u n).1 hn with hn | ⟨rfl, rfl⟩
        · rcases (hwaiting u).1 hw with rfl | hw
          · exact absurd ((h.requested _).2 ⟨n, hn⟩) hi
          · exact h.notYet u n hn hw i hle hlt
        · exact absurd hlt (by show ¬ i < b.track.turns; omega) }

/-- The removal of a timer reaches the service. -/
theorem Served.remove (h : Served b) (hrq : rq.insert = false)
    (hi : rq.t ∈ b.service.settled.inserted) (hr : rq.t ∉ b.service.settled.removed)
    (hsup : rq.t ∈ b.track.superseded) : Served (b.request m rq rest) := by
  have hinserted : ∀ u, u ∈ (b.service.request rq).settled.inserted ↔
      u ∈ b.service.settled.inserted := fun u => by
    simp [mem_settled_inserted_request, hrq]
  have hwaiting : ∀ u, Waiting u (b.service.request rq) ↔
      rq.t ≠ u ∧ Waiting u b.service := fun u => by
    rw [waiting_request]
    split_ifs with hu <;> simp [hu, hrq]
  have hrequested : (b.track.request m rq rest).requested = b.track.requested := by
    simp [TimerTrack.request, hrq]
  exact
    { h with
      allows := allows_request h.allows (by simp [Allows, hrq, hi, hr])
      waiting := fun u hu => by
        obtain ⟨hne, hu⟩ := (hwaiting u).1 hu
        obtain ⟨hui, hur, hut⟩ := h.waiting u hu
        refine ⟨(hinserted u).2 hui, fun hu' => ?_, hut⟩
        rcases mem_settled_removed_request.1 hu' with ⟨he, -⟩ | hu'
        · exact hne he
        · exact hur hu'
      firing := fun u hu => by
        obtain ⟨hui, hur, hut, huw⟩ := h.firing u hu
        exact ⟨(hinserted u).2 hui, hur, hut, fun hw => huw ((hwaiting u).1 hw).2⟩
      fired := fun u hu => (hinserted u).2 (h.fired u hu)
      pending := fun u hu hs ht => by
        have hne : rq.t ≠ u := fun he => hs (he ▸ hsup)
        exact (h.pending u ((hinserted u).1 hu) hs ht).imp_left fun hw => (hwaiting u).2 ⟨hne, hw⟩
      requested := fun u => by
        show _ ↔ ∃ n, (u, n) ∈ (b.track.request m rq rest).requested
        rw [hrequested]
        exact (hinserted u).trans (h.requested u)
      notYet := fun u n hn hw => by
        have hn' : (u, n) ∈ (b.track.request m rq rest).requested := hn
        rw [hrequested] at hn'
        exact h.notYet u n hn' ((hwaiting u).1 hw).2 }

theorem Served.request (h : Served b) (hcalls : Calls b) (hreqs : b.track.reqs m = rq :: rest) :
    Served (b.request m rq rest) := by
  obtain ⟨hr, ⟨hrq, hi⟩ | ⟨hrq, hi, hsup⟩⟩ := hcalls.next hreqs
  · exact h.insert hrq hi hr
  · exact h.remove hrq hi hr hsup

/-! ## Ticks and callbacks -/

theorem Calls.turn (h : Calls b) (fired : List (TimerObj Q D)) : Calls (b.turn fired) := by
  obtain ⟨hi, hr, -⟩ := settled_tick expires b.service
  refine { h with trace := fun u => ?_ }
  have hmade : (b.turn fired).made u = b.made u := by
    unfold made TimerBook.turn
    simp only [hi, hr]
  rw [hmade]
  exact h.trace u

theorem Served.turn (h : Served b) (hfiring : b.track.firing = []) {fired : List (TimerObj Q D)}
    (hnodup : fired.Nodup)
    (hfired : ∀ t, t ∈ fired ↔ t ∈ (b.service.tick expires).2) :
    Served (b.turn fired) := by
  obtain ⟨hi, hr, hr'⟩ := settled_tick expires b.service
  have hclock : b.service.clock + 1 = clockAt b.track.turns := by
    rw [h.clock, clockAt_eq]
  have hwaiting : ∀ u, Waiting u (b.turn fired).service ↔
      Waiting u b.service ∧ ¬ Due u.expires (clockAt b.track.turns) := fun u => by
    rw [← hclock]
    exact waiting_tick b.service
  have hfired' : ∀ u, u ∈ fired ↔
      Waiting u b.service ∧ Due u.expires (clockAt b.track.turns) := fun u => by
    rw [hfired, mem_tick_fired, hclock]
  refine
    { allows := by
        rw [show (b.turn fired).service.requests = [] from tick_requests _ _]
        trivial
      clock := ?_
      waiting := fun u hu => ?_
      firing := fun u hu => ?_
      firingOnce := hnodup
      fired := fun u hu => ?_
      pending := fun u hu hs ht => ?_
      disposed := fun u => ?_
      requested := fun u => ?_
      notYet := fun u n hn hw i hle hlt => ?_ }
  · show (b.service.tick expires).1.clock = _
    rw [tick_clock, hclock]
    rfl
  · obtain ⟨hui, hur, hut⟩ := h.waiting u ((hwaiting u).1 hu).1
    exact ⟨hi.symm ▸ hui, hr.symm ▸ hur, hut⟩
  · obtain ⟨hw, hdue⟩ := (hfired' u).1 hu
    obtain ⟨hui, hur, hut⟩ := h.waiting u hw
    exact ⟨hi.symm ▸ hui, hr'.symm ▸ hur, hut, fun hw' => ((hwaiting u).1 hw').2 hdue⟩
  · exact hi.symm ▸ h.fired u hu
  · have hw : Waiting u b.service := by
      refine (h.pending u (hi ▸ hu) hs ht).resolve_right ?_
      rw [hfiring]
      exact not_mem_nil
    by_cases hdue : Due u.expires (clockAt b.track.turns)
    · exact .inr ((hfired' u).2 ⟨hw, hdue⟩)
    · exact .inl ((hwaiting u).2 ⟨hw, hdue⟩)
  · show (b.track.disposed ++ removals b.service.requests).count u = b.track.timeouts.count u +
      if u ∈ (b.service.tick expires).1.removed then 1 else 0
    simp only [hr']
    rw [settled, removed_processAll_count _ h.allows, count_append, h.disposed u, Nat.add_assoc]
  · exact (iff_of_eq (by rw [← hi]; rfl)).trans (h.requested u)
  · obtain ⟨hw, hdue⟩ := (hwaiting u).1 hw
    rcases Nat.lt_succ_iff_lt_or_eq.1 hlt with hlt | rfl
    · exact h.notYet u n hn hw i hle hlt
    · exact hdue

theorem Calls.timeout (h : Calls b) (ht : b.current t.key = some t) (rest : List (TimerObj Q D)) :
    Calls (b.timeout t rest) := by
  refine { h with keyed := keyed_update h (by simp), once := fun u => ?_ }
  show b.track.superseded.count u + (b.track.timeouts ++ [t]).count u +
    (if update b.current t.key none u.key = some u then 1 else 0) =
      if u ∈ b.track.created then 1 else 0
  rw [count_append, ← Nat.add_assoc]
  exact h.once_leave ht

variable {later : List (TimerObj Q D)}

theorem Served.timeout (h : Served b) (hfiring : b.track.firing = t :: later) :
    Served (b.timeout t later) := by
  have hmem : t ∈ b.track.firing := by rw [hfiring]; simp
  obtain ⟨hti, -, -, htw⟩ := h.firing t hmem
  have honce := h.firingOnce
  rw [hfiring, nodup_cons] at honce
  have hout : ∀ {u}, u ∈ b.track.timeouts ++ [t] ↔ u ∈ b.track.timeouts ∨ u = t := by simp
  exact
    { h with
      waiting := fun u hu => by
        obtain ⟨hui, hur, hut⟩ := h.waiting u hu
        refine ⟨hui, hur, fun hu' => ?_⟩
        rcases hout.1 hu' with hu' | rfl
        · exact hut hu'
        · exact htw hu
      firing := fun u hu => by
        obtain ⟨hui, hur, hut, huw⟩ := h.firing u (by rw [hfiring]; exact mem_cons_of_mem _ hu)
        refine ⟨hui, hur, fun hu' => ?_, huw⟩
        rcases hout.1 hu' with hu' | rfl
        · exact hut hu'
        · exact honce.1 hu
      firingOnce := honce.2
      fired := fun u hu => by
        rcases hout.1 hu with hu | rfl
        · exact h.fired u hu
        · exact hti
      pending := fun u hu hs ht => by
        rcases h.pending u hu hs fun hu' => ht (hout.2 (.inl hu')) with hw | hf
        · exact .inl hw
        · rw [hfiring] at hf
          rcases mem_cons.1 hf with rfl | hf
          · exact absurd (hout.2 (.inr rfl)) ht
          · exact .inr hf
      disposed := fun u => by
        show (b.track.disposed ++ [t]).count u = (b.track.timeouts ++ [t]).count u + _
        rw [count_append, count_append, h.disposed u]
        exact Nat.add_right_comm _ _ _ }

theorem Calls.skip (h : Calls b) (rest : List (TimerObj Q D)) : Calls (b.skip rest) :=
  { h with }

/-- A timer that is not set any more has had its end. -/
theorem Calls.ended (h : Calls b) (hi : t ∈ b.service.settled.inserted)
    (ht : b.current t.key ≠ some t) : t ∈ b.track.superseded ∨ t ∈ b.track.timeouts := by
  have hcreated : t ∈ b.track.superseded ∨ t ∈ b.track.created := by
    by_contra hno
    obtain ⟨hs, hc⟩ := not_or.1 hno
    have htrace := h.trace t
    simp [made, life, hi, hs, hc] at htrace
  rcases hcreated with hs | hc
  · exact .inl hs
  · have honce := h.once t
    rw [if_neg ht, if_pos hc] at honce
    by_contra hno
    obtain ⟨hs, hto⟩ := not_or.1 hno
    rw [count_eq_zero.2 hs, count_eq_zero.2 hto] at honce
    exact absurd honce (by simp)

theorem Served.skip (h : Served b) (hcalls : Calls b) (hfiring : b.track.firing = t :: later)
    (ht : b.current t.key ≠ some t) : Served (b.skip later) := by
  have hsub : ∀ {u}, u ∈ later → u ∈ b.track.firing := fun hu => by
    rw [hfiring]
    exact mem_cons_of_mem _ hu
  have honce := h.firingOnce
  rw [hfiring, nodup_cons] at honce
  exact
    { h with
      firing := fun u hu => h.firing u (hsub hu)
      firingOnce := honce.2
      pending := fun u hu hs hto => by
        rcases h.pending u hu hs hto with hw | hf
        · exact .inl hw
        · rw [hfiring] at hf
          rcases mem_cons.1 hf with rfl | hf
          · exact ((hcalls.ended hu ht).elim hs hto).elim
          · exact .inr hf }

end TimerBook

end Sems
