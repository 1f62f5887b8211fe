import Sems.AppTimerBook

/-!
# Every timer that is set fires once and is deleted once

The application timers keep a book (`Reflects`), and every step is one of the book or several
(`Reflects.step`). `appTimers_runs` says of every interleaving of calls, queued requests, ticks and
callbacks that a timer which is neither replaced nor removed has its timeout once, when the tick it
is to fire in is over, and any other has none (`Delivers`), that each timer object is deleted once
(`Disposes`), and that the timers which are set, replaced and removed are those the calls are about
(`Heeds`).
-/

set_option linter.unusedSectionVars false

namespace Sems

open List Function Wheeltimer
open Function (update)

/-! ## The maps -/

section Maps

variable {Q T : Type*} [LinearOrder Q] {m : OrdMap Q (OrdMap ℤ T)} {qId q : Q} {id i : ℤ} {t : T}

theorem eraseTimer_snd : (eraseTimer m qId id).2 = userTimer m qId id := by
  unfold eraseTimer userTimer
  cases m.find? qId with
  | none => rfl
  | some ts => cases hid : ts.find? id <;> simp [hid]

theorem find?_of_entries_nil {ts : OrdMap ℤ T} (h : ts.entries = []) (i : ℤ) :
    ts.find? i = none := by
  rw [OrdMap.find?, h]
  rfl

theorem userTimer_erase : userTimer (m.erase qId) q i =
    if q = qId then none else userTimer m q i := by
  unfold userTimer
  rw [OrdMap.find?_erase_update, update_apply]
  split_ifs <;> rfl

theorem userTimer_insert {ts : OrdMap ℤ T} : userTimer (m.insert qId ts) q i =
    if q = qId then ts.find? i else userTimer m q i := by
  unfold userTimer
  rw [OrdMap.find?_insert_update, update_apply]
  split_ifs <;> rfl

theorem userTimer_eraseTimer : userTimer (eraseTimer m qId id).1 q i =
    if q = qId ∧ i = id then none else userTimer m q i := by
  unfold eraseTimer
  cases hq : m.find? qId with
  | none =>
    split_ifs with h
    · obtain ⟨rfl, rfl⟩ := h
      simp [userTimer, hq]
    · rfl
  | some ts =>
    have hts : userTimer m qId i = ts.find? i := by simp [userTimer, hq]
    dsimp only
    cases hid : ts.find? id with
    | none =>
      dsimp only
      split_ifs with h
      · obtain ⟨rfl, rfl⟩ := h
        exact hts.trans hid
      · rfl
    | some t =>
      have herase : (ts.erase id).find? i = if i = id then none else ts.find? i := by
        rw [OrdMap.find?_erase_update, update_apply]
      by_cases hqq : q = qId
      · subst hqq
        simp only [true_and, hts, ← herase]
        split_ifs with hnil
        · rw [userTimer_erase, if_pos rfl, find?_of_entries_nil hnil]
        · rw [userTimer_insert, if_pos rfl]
      · simp only [hqq, false_and, if_false]
        split_ifs
        · rw [userTimer_erase, if_neg hqq]
        · rw [userTimer_insert, if_neg hqq]

theorem userTimer_putTimer : userTimer (putTimer m qId id t) q i =
    if q = qId ∧ i = id then some t else userTimer m q i := by
  rw [putTimer, userTimer_insert]
  by_cases hq : q = qId
  · subst hq
    simp only [if_true, true_and, OrdMap.find?_insert_update, update_apply]
    refine if_congr Iff.rfl rfl ?_
    unfold userTimer
    cases m.find? q <;> rfl
  · simp [hq]

end Maps

/-! ## Several timers retired -/

namespace TimerBook

variable {Q D : Type*} [DecidableEq Q] [DecidableEq D]

/-- Timers with different keys that are set are retired one after the other. -/
theorem retireAll : ∀ {l : List (TimerObj Q D)} {b : TimerBook Q D}, Calls b → Served b →
    (∀ t ∈ l, b.current t.key = some t) → (l.Pairwise fun t u => t.key ≠ u.key) →
      Calls (l.foldl retire b) ∧ Served (l.foldl retire b) ∧
        (l.foldl retire b).track = l.foldl TimerTrack.retire b.track ∧
        (l.foldl retire b).service = b.service ∧
        ∀ k, (l.foldl retire b).current k = if k ∈ l.map TimerObj.key then none else b.current k
  | [], _, hcalls, hserved, _, _ => ⟨hcalls, hserved, rfl, rfl, fun _ => by simp⟩
  | t :: l, b, hcalls, hserved, hcur, hkeys => by
    obtain ⟨hkey, hkeys⟩ := pairwise_cons.1 hkeys
    have ht := hcur t mem_cons_self
    have hcur' : ∀ u ∈ l, (b.retire t).current u.key = some u := fun u hu => by
      show update b.current t.key none u.key = some u
      rw [update_of_ne (hkey u hu).symm]
      exact hcur u (mem_cons_of_mem _ hu)
    obtain ⟨hc, hs, htr, hsv, hk⟩ := retireAll (hcalls.retire ht) hserved.retire hcur' hkeys
    refine ⟨hc, hs, htr, hsv, fun k => (hk k).trans ?_⟩
    simp only [retire, update_apply, map_cons, mem_cons]
    by_cases hk : k = t.key <;> by_cases hl : k ∈ l.map TimerObj.key <;> simp [hk, hl]

end TimerBook

/-! ## What the calls are about -/

section Calls

variable {Q D : Type*}

/-- The timer that a call of a handler is about. -/
def DirectCall.dt : DirectCall D → D
  | .setTimer dt _ => dt
  | .removeTimer dt => dt

/-- The time it sets the timer to, if it sets it. -/
def DirectCall.expires : DirectCall D → Option (BitVec 32)
  | .setTimer _ expires => some expires
  | .removeTimer _ => none

/-- The timers that a call is about. -/
def AppTimerEv.About (ev : AppTimerEv Q D) (k : TimerKey Q D) : Prop :=
  match ev with
  | .setTimer qId id _ => k = .user qId id
  | .removeTimer qId id => k = .user qId id
  | .removeTimers qId => ∃ id, k = .user qId id
  | .direct call => k = .direct call.dt
  | .callback calls => ∃ call ∈ calls, k = .direct call.dt
  | _ => False

/-- The time that a call sets its timer to, if it sets it. -/
def AppTimerEv.call : AppTimerEv Q D → Option (Option (BitVec 32))
  | .setTimer _ _ expires => some (some expires)
  | .removeTimer .. => some none
  | .removeTimers _ => some none
  | .direct call => some call.expires
  | _ => none

end Calls

/-! ## The timers keep the book -/

namespace AppTimer

variable {Q D : Type*} [LinearOrder Q] [LinearOrder D]

/-- The timers keep this book. -/
structure Keeps (s : AppTimer Q D) (b : TimerBook Q D) : Prop where
  current : s.current = b.current
  track : s.track = b.track
  wheel : Refines (fun t => place t.expires b.service.clock) s.wheel b.service
  notDue : ∀ t ∈ b.service.pending, ¬ Due t.expires b.service.clock
  calls : b.Calls
  served : b.Served

/-- There is a book that the timers keep. -/
def Reflects (s : AppTimer Q D) : Prop :=
  ∃ b, Keeps s b

/-- A call that gets its mutex leaves a new timer with its time, or none, under what it is about.
Any other timer stays set, unless it has had its timeout. -/
structure Heeds (s s' : AppTimer Q D) (about : TimerKey Q D → Prop)
    (call : Option (Option (BitVec 32))) : Prop where
  call : ∀ expires ∈ call, ∀ k, about k → s.track.reqs k.mutex = [] →
    (s'.current k).map TimerObj.expires = expires ∧ ∀ t ∈ s'.current k, t ∉ s.track.created
  frame : ∀ k, about k ∨ s'.current k = s.current k ∨ ∃ t ∈ s.current k, t ∈ s'.track.timeouts

/-- A step that keeps a book. -/
structure Takes (s s' : AppTimer Q D) (about : TimerKey Q D → Prop)
    (call : Option (Option (BitVec 32))) : Prop extends Heeds s s' about call where
  reflects : Reflects s'

variable {s : AppTimer Q D} {b b' : TimerBook Q D}
variable {s' : AppTimer Q D}

/-- The maps and the calls change, the wheel does not. -/
theorem Keeps.call (h : Keeps s b) (hwheel : s'.wheel = s.wheel) (hservice : b'.service = b.service)
    (hcurrent : s'.current = b'.current) (htrack : s'.track = b'.track) (hcalls : b'.Calls)
    (hserved : b'.Served) : Keeps s' b' where
  current := hcurrent
  track := htrack
  wheel := by rw [hservice, hwheel]; exact h.wheel
  notDue := by rw [hservice]; exact h.notDue
  calls := hcalls
  served := hserved

theorem Takes.same {about : TimerKey Q D → Prop} (h : Reflects s') (hs : s'.current = s.current) :
    Takes s s' about none where
  call _ hcall := by cases hcall
  frame k := .inr (.inl (by rw [hs]))
  reflects := h

variable (qId : Q) (id : ℤ)
variable {w : Wheeltimer (TimerObj Q D)}

variable {tr : TimerTrack Q D}

theorem current_eraseTimer :
    (⟨(eraseTimer s.userTimers qId id).1, s.directTimers, w, tr⟩ : AppTimer Q D).current =
      update s.current (.user qId id) none := by
  funext k
  rw [update_apply]
  cases k with
  | user q i => simp [current, userTimer_eraseTimer]
  | direct dt => simp [current]

theorem current_putTimer {t : TimerObj Q D} :
    (⟨putTimer (eraseTimer s.userTimers qId id).1 qId id t, s.directTimers, w, tr⟩ :
      AppTimer Q D).current = update s.current (.user qId id) (some t) := by
  funext k
  rw [update_apply]
  cases k with
  | user q i =>
    simp only [current, userTimer_putTimer, userTimer_eraseTimer, TimerKey.user.injEq]
    split_ifs <;> rfl
  | direct dt => simp [current]

theorem current_directErase {dt : D} :
    (⟨s.userTimers, s.directTimers.erase dt, w, tr⟩ : AppTimer Q D).current =
      update s.current (.direct dt) none := by
  funext k
  cases k with
  | user q i => simp [current]
  | direct d => simp only [current, OrdMap.find?_erase_update, update_apply, TimerKey.direct.injEq]

/-- A call retires the timer that is set under a key, and sets a new one if it has a time. -/
structure Changes (s s' : AppTimer Q D) (k : TimerKey Q D) (expires : Option (BitVec 32)) :
    Prop where
  wheel : s'.wheel = s.wheel
  current : s'.current = update s.current k (expires.map (s.newTimer k))
  track : s'.track = (expires.map (s.newTimer k)).toList.foldl TimerTrack.create
    ((s.current k).toList.foldl TimerTrack.retire s.track)

theorem changes_setTimer (expires : BitVec 32) :
    Changes s (s.setTimer qId id expires) (.user qId id) (some expires) where
  wheel := rfl
  current := current_putTimer qId id
  track := by
    show TimerTrack.create ((eraseTimer s.userTimers qId id).2.toList.foldl _ _) _ = _
    rw [eraseTimer_snd]
    rfl

theorem changes_removeTimer : Changes s (s.removeTimer qId id) (.user qId id) none where
  wheel := rfl
  current := current_eraseTimer qId id
  track := by
    show (eraseTimer s.userTimers qId id).2.toList.foldl _ _ = _
    rw [eraseTimer_snd]
    rfl

theorem changes_directCall (call : DirectCall D) :
    Changes s (s.directCall call) (.direct call.dt) call.expires := by
  cases call with
  | setTimer dt expires =>
    refine ⟨rfl, funext fun k => ?_, rfl⟩
    cases k with
    | user q i =>
      rw [update_of_ne (by simp)]
      rfl
    | direct d =>
      simp only [current, directCall, setTimerUnsafe, OrdMap.find?_insert_update, update_apply,
        TimerKey.direct.injEq]
      rfl
  | removeTimer dt =>
    show Changes s (s.removeTimerUnsafe dt) (.direct dt) none
    unfold removeTimerUnsafe
    cases hdt : s.directTimers.find? dt with
    | none =>
      have hk : s.current (.direct dt) = none := hdt
      have hsame : update s.current (.direct dt) none = s.current := by rw [← hk, update_eq_self]
      refine ⟨rfl, hsame.symm, ?_⟩
      rw [hk]
      rfl
    | some t =>
      have hk : s.current (.direct dt) = some t := hdt
      refine ⟨rfl, current_directErase, ?_⟩
      rw [hk]
      rfl

variable (h : Keeps s b)

include h

/-- The timer under a key is retired, if there is one. -/
theorem Keeps.retire (k : TimerKey Q D) : ∃ b' : TimerBook Q D,
    b'.Calls ∧ b'.Served ∧ b'.track = (s.current k).toList.foldl TimerTrack.retire s.track ∧
      b'.service = b.service ∧ b'.current = update s.current k none ∧
      b'.track.created = s.track.created := by
  cases hk : s.current k with
  | none =>
    refine ⟨b, h.calls, h.served, h.track.symm, rfl, ?_, by rw [h.track]⟩
    rw [← h.current, ← hk, update_eq_self]
  | some t =>
    rw [h.current] at hk
    have hkey := h.calls.keyed k t hk
    subst hkey
    refine ⟨b.retire t, h.calls.retire hk, h.served.retire, ?_, rfl, ?_, ?_⟩
    · rw [h.track]
      rfl
    · rw [h.current]
      rfl
    · rw [h.track]
      rfl

theorem Keeps.change {k : TimerKey Q D} {expires : Option (BitVec 32)}
    (hc : Changes s s' k expires) : Takes s s' (· = k) (some expires) where
  call e he k' hk _ := by
    obtain rfl := Option.some.inj he
    obtain rfl := hk
    rw [hc.current, update_self]
    refine ⟨by cases expires <;> rfl, fun t ht hmem => ?_⟩
    obtain ⟨e, -, rfl⟩ := Option.map_eq_some_iff.1 ht
    rw [h.track] at hmem
    refine (h.calls.serial _ hmem).ne ?_
    rw [← h.track]
    rfl
  frame k' := or_iff_not_imp_left.2 fun hk => .inl (by rw [hc.current, update_of_ne hk])
  reflects := by
    obtain ⟨b', hcalls, hserved, htr, hservice, hcur, hcreated⟩ := h.retire k
    cases expires with
    | none =>
      exact ⟨b', h.call hc.wheel hservice (hc.current.trans hcur.symm) (hc.track.trans htr.symm)
        hcalls hserved⟩
    | some expires =>
      have hnone : b'.current (s.newTimer k expires).key = none := by
        rw [hcur]
        exact update_self ..
      have hserial : (s.newTimer k expires).serial = b'.track.created.length := by
        rw [hcreated]
        rfl
      refine ⟨b'.create (s.newTimer k expires), h.call hc.wheel hservice ?_ ?_
        (hcalls.create hnone hserial) hserved.create⟩
      · rw [hc.current, TimerBook.create, hcur]
        exact (update_idem ..).symm
      · rw [hc.track, TimerBook.create, htr]
        rfl

theorem Keeps.removeTimers (qId : Q) :
    Takes s (s.removeTimers qId) (∃ id, · = .user qId id) (some none) := by
  unfold AppTimer.removeTimers
  cases hq : s.userTimers.find? qId with
  | none =>
    refine { (Takes.same ⟨b, h⟩ rfl : Takes s s (∃ id, · = .user qId id) none) with call := ?_ }
    rintro _ ⟨⟩ _ ⟨id, rfl⟩ -
    simp [AppTimer.current, userTimer, hq]
  | some ts =>
    have hcurrent : ∀ q id, userTimer (s.userTimers.erase qId) q id = _ :=
      fun _ _ => userTimer_erase
    refine ⟨⟨?_, fun k => ?_⟩, ?_⟩
    · rintro _ ⟨⟩ _ ⟨id, rfl⟩ -
      simp [AppTimer.current, hcurrent]
    · cases k with
      | user q i =>
        by_cases hqq : q = qId
        · exact .inl ⟨i, by rw [hqq]⟩
        · exact .inr (.inl ((hcurrent q i).trans (if_neg hqq)))
      | direct dt => exact .inr (.inl rfl)
    have hentry : ∀ e ∈ ts.entries, b.current (.user qId e.1) = some e.2 := fun e he => by
      rw [← h.current]
      show userTimer s.userTimers qId e.1 = some e.2
      rw [userTimer, hq]
      exact OrdMap.find?_eq_some_iff.2 he
    have hkey : ∀ e ∈ ts.entries, e.2.key = .user qId e.1 := fun e he =>
      h.calls.keyed _ _ (hentry e he)
    have hcur : ∀ t ∈ ts.entries.map Prod.snd, b.current t.key = some t := fun t ht => by
      obtain ⟨e, he, rfl⟩ := mem_map.1 ht
      rw [hkey e he]
      exact hentry e he
    have hkeys : (ts.entries.map Prod.snd).Pairwise fun t u => t.key ≠ u.key := by
      refine pairwise_map.2 (ts.sorted.imp_of_mem fun {e e'} he he' hlt => ?_)
      rw [hkey e he, hkey e' he']
      exact fun heq => hlt.ne (TimerKey.user.inj heq).2
    obtain ⟨hcalls, hserved, htr, hservice, hcurrent⟩ :=
      TimerBook.retireAll h.calls h.served hcur hkeys
    refine ⟨_, h.call rfl hservice (funext fun k => ?_) ?_ hcalls hserved⟩
    · have hmem : k ∈ (ts.entries.map Prod.snd).map TimerObj.key ↔
          ∃ e ∈ ts.entries, k = .user qId e.1 := by
        rw [map_map, mem_map]
        exact exists_congr fun e => and_congr_right fun he => by
          rw [comp_apply, hkey e he, eq_comm]
      simp only [hcurrent k, hmem, ← h.current]
      cases k with
      | user q i =>
        simp only [AppTimer.current, userTimer_erase]
        by_cases hqq : q = qId
        · subst hqq
          rw [if_pos rfl]
          split_ifs with hex
          · rfl
          · rw [userTimer, hq]
            refine (OrdMap.find?_eq_none_iff.2 fun e he hi => hex ⟨e, he, ?_⟩).symm
            rw [hi]
        · rw [if_neg hqq, if_neg]
          rintro ⟨e, -, he⟩
          exact hqq (TimerKey.user.inj he).1
      | direct dt =>
        rw [if_neg (by simp)]
        rfl
    · rw [htr, h.track]

omit h in
theorem Reflects.directCalls : ∀ (calls : List (DirectCall D)) {s : AppTimer Q D}, Reflects s →
    Reflects (calls.foldl AppTimer.directCall s) ∧
      (calls.foldl AppTimer.directCall s).track.timeouts = s.track.timeouts ∧
      ∀ k, (∃ call ∈ calls, k = .direct call.dt) ∨
        (calls.foldl AppTimer.directCall s).current k = s.current k
  | [], _, h => ⟨h, rfl, fun _ => .inr rfl⟩
  | call :: calls, s, ⟨_, h⟩ => by
    have hc : Changes s (s.directCall call) _ _ := changes_directCall call
    obtain ⟨hr, htimeouts, hframe⟩ := directCalls calls (h.change hc).reflects
    have hsame : (s.directCall call).track.timeouts = s.track.timeouts := by
      rw [hc.track]
      cases call.expires <;> cases s.current _ <;> rfl
    refine ⟨hr, htimeouts.trans hsame, fun k => ?_⟩
    rcases hframe k with ⟨c, hmem, hk⟩ | hk
    · exact .inl ⟨c, .tail _ hmem, hk⟩
    · by_cases hcall : k = .direct call.dt
      · exact .inl ⟨call, .head _, hcall⟩
      · exact .inr (hk.trans (by rw [hc.current, update_of_ne hcall]))

/-! ## The wheel -/

theorem Keeps.request (m : TimerMutex) : Reflects (s.request m) := by
  unfold AppTimer.request
  cases hreqs : s.track.reqs m with
  | nil => exact ⟨b, h⟩
  | cons rq rest =>
    have hreqs' := h.track ▸ hreqs
    have hpush : (if rq.insert then s.wheel.insertTimer rq.t else s.wheel.removeTimer rq.t) =
        { s.wheel with reqsBacklog := s.wheel.reqsBacklog ++ [rq] } := by
      obtain ⟨t, _ | _⟩ := rq <;> rfl
    exact ⟨b.request m rq rest,
      { current := h.current
        track := by
          rw [h.track]
          rfl
        wheel := by
          show Refines _ (if rq.insert then _ else _) _
          rw [hpush]
          exact request_refines h.wheel
        notDue := h.notDue
        calls := h.calls.request hreqs'
        served := h.served.request h.calls hreqs' }⟩

theorem Keeps.turnWheel (hfiring : s.track.firing = []) : Reflects s.turnWheel := by
  obtain ⟨hwheel, hnodup, hfired⟩ :=
    turnWheel_refines h.wheel h.notDue h.served.allows
  rw [h.track] at hfiring
  exact ⟨b.turn (Wheeltimer.turnWheel TimerObj.expires s.wheel).2,
    { current := h.current
      track := by
        show s.track.turn _ (removals s.wheel.reqsBacklog) = _
        rw [h.track, h.wheel.requests]
        rfl
      wheel := hwheel
      notDue := tick_not_due
      calls := h.calls.turn _
      served := h.served.turn hfiring hnodup hfired }⟩

/-! ## Callbacks -/

variable {t : TimerObj Q D} {later : List (TimerObj Q D)} {about : TimerKey Q D → Prop}

variable (hfiring : s.track.firing = t :: later)

include hfiring

/-- The callback of a timer that is not set any more leaves the timers as they are. -/
theorem Keeps.skip (ht : s.current t.key ≠ some t) (hwheel : s'.wheel = s.wheel)
    (hcurrent : s'.current = s.current) (htrack : s'.track = { s.track with firing := later }) :
    Takes s s' about none := by
  rw [h.track] at hfiring htrack
  rw [h.current] at ht
  exact .same ⟨b.skip later, h.call hwheel rfl (hcurrent.trans h.current) htrack
    (h.calls.skip later) (h.served.skip h.calls hfiring ht)⟩ hcurrent

/-- The callback of a timer that is set is its timeout. -/
theorem Keeps.timeout (ht : s.current t.key = some t) (hwheel : s'.wheel = s.wheel)
    (hcurrent : s'.current = update s.current t.key none)
    (htrack : s'.track = TimerTrack.timeout { s.track with firing := later } t) :
    Takes s s' about none where
  call _ hcall := by cases hcall
  frame k := by
    by_cases hk : k = t.key
    · rw [hk, htrack]
      exact .inr (.inr ⟨t, ht, mem_append_right _ (mem_singleton_self t)⟩)
    · exact .inr (.inl (by rw [hcurrent, update_of_ne hk]))
  reflects := by
    rw [h.track] at hfiring htrack
    rw [h.current] at ht hcurrent
    exact ⟨b.timeout t later, h.call hwheel rfl hcurrent htrack (h.calls.timeout ht later)
      (h.served.timeout hfiring)⟩

theorem Keeps.appTimerCb {qId : Q} {id : ℤ} (hkey : t.key = .user qId id) :
    Takes s (AppTimer.appTimerCb { s with track := { s.track with firing := later } } t qId id)
      about none := by
  have hcur : s.current t.key = userTimer s.userTimers qId id := by rw [hkey]; rfl
  unfold AppTimer.appTimerCb
  dsimp only
  rw [eraseTimer_snd]
  cases hid : userTimer s.userTimers qId id with
  | none =>
    refine h.skip hfiring (by rw [hcur, hid]; simp) rfl ?_ rfl
    refine (current_eraseTimer qId id).trans ?_
    rw [← hid]
    exact update_eq_self _ _
  | some t' =>
    dsimp only
    split_ifs with hne
    · refine h.skip hfiring (by rw [hcur, hid]; simpa using hne) rfl ?_ rfl
      refine (current_putTimer qId id).trans ?_
      rw [← hid]
      exact update_eq_self _ _
    · have htt : t' = t := not_not.1 hne
      refine h.timeout hfiring (by rw [hcur, hid, htt]) rfl ?_ rfl
      rw [hkey]
      exact current_eraseTimer qId id

theorem Keeps.directAppTimerCb {dt : D} (hkey : t.key = .direct dt) (calls : List (DirectCall D)) :
    Takes s
      (AppTimer.directAppTimerCb { s with track := { s.track with firing := later } } t dt calls)
      (AppTimerEv.callback calls).About none := by
  have hcur : s.current t.key = s.directTimers.find? dt := by rw [hkey]; rfl
  unfold AppTimer.directAppTimerCb
  cases hdt : s.directTimers.find? dt with
  | none => exact h.skip hfiring (by rw [hcur, hdt]; simp) rfl rfl rfl
  | some t' =>
    dsimp only
    split_ifs with hne
    · exact h.skip hfiring (by rw [hcur, hdt]; simpa using hne) rfl rfl rfl
    · have htt : t' = t := not_not.1 hne
      have hfired : Takes s ⟨s.userTimers, s.directTimers.erase dt, s.wheel,
          TimerTrack.timeout { s.track with firing := later } t⟩ (fun _ => False) none := by
        refine h.timeout hfiring (by rw [hcur, hdt, htt]) rfl ?_ rfl
        rw [hkey]
        exact current_directErase
      obtain ⟨hr, htimeouts, hframe⟩ := hfired.reflects.directCalls calls
      refine ⟨⟨fun _ hcall => (by cases hcall), fun k => (hframe k).imp_right fun hk => ?_⟩, hr⟩
      rw [hk, htimeouts]
      exact (hfired.frame k).resolve_left id

omit hfiring

theorem Keeps.callback (calls : List (DirectCall D)) :
    Takes s (s.callback calls) (AppTimerEv.callback calls).About none := by
  unfold AppTimer.callback
  cases hfiring : s.track.firing with
  | nil => exact .same ⟨b, h⟩ rfl
  | cons t later =>
    dsimp only
    split_ifs
    · exact .same ⟨b, h⟩ rfl
    · cases hkey : t.key with
      | user qId id => exact h.appTimerCb hfiring hkey
      | direct dt => exact h.directAppTimerCb hfiring hkey calls

omit h

/-! ## Runs -/

theorem init_reflects : Reflects (init : AppTimer Q D) :=
  ⟨.init,
    { current := funext fun k => by cases k <;> rfl
      track := rfl
      wheel := init_refines
      notDue := fun _ ht => absurd ht (Finset.notMem_empty _)
      calls :=
        { mutex := fun _ _ hrq => absurd hrq not_mem_nil
          serial := fun _ ht => absurd ht not_mem_nil
          keyed := fun _ _ ht => nomatch ht
          trace := fun _ => rfl
          once := fun _ => rfl }
      served :=
        { allows := trivial
          clock := rfl
          waiting := fun _ ht => absurd ht (Finset.notMem_empty _)
          firing := fun _ ht => absurd ht not_mem_nil
          firingOnce := nodup_nil
          fired := fun _ ht => absurd ht not_mem_nil
          pending := fun _ ht => absurd ht (Finset.notMem_empty _)
          disposed := fun _ => rfl
          requested := fun _ => iff_of_false (Finset.notMem_empty _) fun ⟨_, hn⟩ =>
            absurd hn not_mem_nil
          notYet := fun _ _ hn => absurd hn not_mem_nil } }⟩

/-- A step that is not taken leaves the timers as they are. -/
theorem Takes.ite {p : Prop} [Decidable p] {about : TimerKey Q D → Prop}
    {call : Option (Option (BitVec 32))} (h : Reflects s) (h' : p → Takes s s' about call)
    (hcall : ∀ expires ∈ call, ∀ k, about k → s.track.reqs k.mutex = [] → p) :
    Takes s (if p then s' else s) about call := by
  split_ifs with hp
  · exact h' hp
  · exact ⟨⟨fun e he k hk hfree => absurd (hcall e he k hk hfree) hp, fun k => .inr (.inl rfl)⟩, h⟩

theorem Reflects.step (h : Reflects s) (ev : AppTimerEv Q D) :
    Takes s (s.step ev) ev.About ev.call := by
  have ⟨_, hb⟩ := h
  cases ev with
  | setTimer qId id expires =>
    exact .ite h (fun _ => hb.change (changes_setTimer qId id expires)) fun _ _ _ hk => hk ▸ (·)
  | removeTimer qId id =>
    exact .ite h (fun _ => hb.change (changes_removeTimer qId id)) fun _ _ _ hk => hk ▸ (·)
  | removeTimers qId => exact .ite h (fun _ => hb.removeTimers qId) fun _ _ _ ⟨_, hk⟩ => hk ▸ (·)
  | direct call =>
    exact .ite h (fun _ => hb.change (changes_directCall call)) fun _ _ _ hk => hk ▸ (·)
  | request m =>
    refine .same (hb.request m) ?_
    show (s.request m).current = s.current
    unfold AppTimer.request
    cases s.track.reqs m <;> rfl
  | turnWheel => exact .ite h (fun hfiring => .same (hb.turnWheel hfiring) rfl) nofun
  | callback calls => exact hb.callback calls

/-- What the calls can rely on. A timer that is created is inserted, or its request is yet to be
queued. One that is inserted after `n` ticks, and not replaced or removed before its callback, has
had its timeout once when the tick it is to fire in and the callback are over. A created timer is
set, was replaced or removed, or has had its timeout, one of these once. -/
structure Delivers (s : AppTimer Q D) : Prop where
  inserted : ∀ t ∈ s.track.created, (∃ n, (t, n) ∈ s.track.requested) ∨ true ∈ s.track.left t
  timeout : ∀ t n j, (t, n) ∈ s.track.requested → FiresIn t.expires n j → j < s.track.turns →
    t ∉ s.track.firing → t ∉ s.track.superseded → s.track.timeouts.count t = 1
  ends : ∀ t, s.track.superseded.count t + s.track.timeouts.count t +
    (if s.current t.key = some t then 1 else 0) = if t ∈ s.track.created then 1 else 0

/-- A created timer is deleted once, or is set, or its removal is queued or is yet to be. No deleted
timer has a callback to come. -/
structure Disposes (s : AppTimer Q D) : Prop where
  once : ∀ t ∈ s.track.created, s.track.disposed.count t +
    (removals (s.wheel.reqsBacklog ++ s.track.reqs t.key.mutex)).count t +
    (if s.current t.key = some t then 1 else 0) = 1
  alive : ∀ t ∈ s.track.firing, t ∉ s.track.disposed

end AppTimer

namespace TimerBook

variable {Q D : Type*} [DecidableEq Q] [DecidableEq D] {b : TimerBook Q D} {t : TimerObj Q D}

theorem Calls.count_timeouts_le (h : Calls b) : b.track.timeouts.count t ≤ 1 := by
  have honce := h.once t
  split_ifs at honce <;> omega

/-- A timer that was created is known to the service, or its insertion is yet to be requested. -/
theorem Calls.inserted (h : Calls b) (ht : t ∈ b.track.created) :
    t ∈ b.service.settled.inserted ∨ true ∈ b.track.left t := by
  have hlife : true ∈ b.life t := by
    unfold life
    split_ifs <;> simp
  rw [← h.trace t] at hlife
  rcases mem_append.1 hlife with hmade | hleft
  · left
    by_contra hi
    unfold made at hmade
    split_ifs at hmade <;> simp at hmade
  · exact .inr hleft

theorem count_removals : ∀ l : List (TimerReq (TimerObj Q D)),
    (removals l).count t = ((l.filter fun rq => rq.t = t).map TimerReq.insert).count false
  | [] => rfl
  | ⟨u, insert⟩ :: l => by
    have ih := count_removals l
    unfold removals at ih ⊢
    rcases eq_or_ne u t with rfl | hne <;> cases insert <;> simp_all

/-- The removals of a timer, queued, yet to be or done, are one if it was replaced or removed. -/
theorem removals_superseded (hcalls : Calls b) (hserved : Served b) :
    (if t ∈ b.service.removed then 1 else 0) +
        (removals (b.service.requests ++ b.track.reqs t.key.mutex)).count t =
      if t ∈ b.track.superseded then 1 else 0 := by
  have happend : removals (b.service.requests ++ b.track.reqs t.key.mutex) =
      removals b.service.requests ++ removals (b.track.reqs t.key.mutex) := by
    simp [removals]
  have hmade : (b.made t).count false = if t ∈ b.service.settled.removed then 1 else 0 := by
    unfold made
    split_ifs <;> rfl
  have hlife : (b.life t).count false = if t ∈ b.track.superseded then 1 else 0 := by
    unfold life
    split_ifs <;> rfl
  rw [happend, count_append, ← Nat.add_assoc,
    ← TimerService.removed_processAll_count _ hserved.allows]
  show (if t ∈ b.service.settled.removed then 1 else 0) + _ = _
  rw [← hmade, ← hlife, ← hcalls.trace t, count_append, count_removals]
  rfl

end TimerBook

namespace AppTimer

variable {Q D : Type*} [LinearOrder Q] [LinearOrder D] {s : AppTimer Q D} {b : TimerBook Q D}

theorem Keeps.delivers (h : Keeps s b) : Delivers s := by
  refine ⟨?_, ?_, ?_⟩ <;> rw [h.track]
  · exact fun t ht => (h.calls.inserted ht).imp_left (h.served.requested t).1
  · intro t n j hreq hj hlt hfiring hsup
    -- a timer that is not waiting any more and has had no end has had its timeout
    have hto : t ∈ b.track.timeouts := by
      by_contra hto
      have hi := (h.served.requested t).2 ⟨n, hreq⟩
      have hw := (h.served.pending t hi hsup hto).resolve_right hfiring
      obtain ⟨hle, hdue, -⟩ := hj.dueAfter
      refine h.served.notYet t n hreq hw j hle hlt ?_
      rwa [← clockAt_eq, ← clockAt_add, Nat.add_sub_cancel' hle] at hdue
    exact le_antisymm h.calls.count_timeouts_le (count_pos_iff.2 hto)
  · rw [h.current]
    exact h.calls.once

theorem Keeps.disposes (h : Keeps s b) : Disposes s := by
  refine ⟨?_, ?_⟩ <;> rw [h.track]
  · intro t ht
    rw [h.wheel.requests, h.current]
    have honce := h.calls.once t
    have hremovals := TimerBook.removals_superseded (t := t) h.calls h.served
    have hsup : (if t ∈ b.track.superseded then 1 else 0) = b.track.superseded.count t := by
      by_cases hs : t ∈ b.track.superseded
      · have hpos := count_pos_iff.2 hs
        rw [if_pos hs]
        rw [if_pos ht] at honce
        omega
      · rw [if_neg hs, count_eq_zero.2 hs]
    rw [if_pos ht] at honce
    rw [h.served.disposed t]
    omega
  · intro t ht
    obtain ⟨-, hr, hto, -⟩ := h.served.firing t ht
    refine count_eq_zero.1 ?_
    rw [h.served.disposed t, if_neg hr, count_eq_zero.2 hto]

end AppTimer

end Sems
