import Sems.TransRuns

/-!
# The intervals of the retransmissions

Timers E and G are set again each time they expire, with a delay that is doubled up to `T2`
(`TimerConfig.delay`). The `n`-th interval is `min (T1 * 2 ^ n) T2` exactly when the shift does
not lose what it needs (`TimerConfig.delay_eq_iff`).

A client transaction repeats its request with timer E only while timer F is set (`SipTrans.Paced`).
`SipTrans.KeepsPace` is what is asked of a transaction of either side.
-/

namespace Sems

open Timers ReqMethod

/-! ## Delays -/

/-- `E_TIMER`, `G_TIMER` and `T2_TIMER`, which can be configured. -/
structure TimerConfig where
  eTimer : UInt32
  gTimer : UInt32
  t2Timer : UInt32

namespace TimerConfig

variable (cfg : TimerConfig)

def default : TimerConfig :=
  ⟨500, 500, 4000⟩

/-- The first delay of timer E or G. -/
def t1 (type : TimerType) : ℕ :=
  (if type = .STIMER_E then cfg.eTimer else cfg.gTimer).toNat

def t2 : ℕ :=
  cfg.t2Timer.toNat

/-- The delay of timer E or G. Only after the first one it is compared with `T2`. A shift by 32 or
more is not defined. -/
def delay (timer : TransTimer) : ℕ :=
  if timer.n = 0 then cfg.t1 timer.type
  else
    let retrTimer := (cfg.t1 timer.type <<< timer.n) % 2 ^ 32
    if retrTimer > cfg.t2 then cfg.t2 else retrTimer

/-- The shift loses nothing, or it leaves enough. -/
def IntervalOk (timer : TransTimer) : Prop :=
  if timer.n = 0 then cfg.t1 timer.type ≤ cfg.t2
  else
    timer.n < 32 ∧ (cfg.t1 timer.type * 2 ^ timer.n < 2 ^ 32 ∨
      cfg.t2 ≤ cfg.t1 timer.type * 2 ^ timer.n % 2 ^ 32)

instance (timer : TransTimer) : Decidable (cfg.IntervalOk timer) := by
  unfold IntervalOk
  infer_instance

theorem delay_eq_iff {timer : TransTimer} (hn : timer.n < 32) :
    cfg.delay timer = min (cfg.t1 timer.type * 2 ^ timer.n) cfg.t2 ↔ cfg.IntervalOk timer := by
  unfold delay IntervalOk
  by_cases hzero : timer.n = 0
  · rw [if_pos hzero, if_pos hzero, hzero, pow_zero, Nat.mul_one]
    omega
  rw [if_neg hzero, if_neg hzero, Nat.shiftLeft_eq]
  generalize cfg.t1 timer.type * 2 ^ timer.n = x
  dsimp only
  by_cases hx : x < 2 ^ 32
  · split_ifs
    all_goals omega
  · split_ifs
    all_goals omega

theorem IntervalOk.delay_eq {cfg : TimerConfig} {timer : TransTimer} (h : cfg.IntervalOk timer) :
    cfg.delay timer = min (cfg.t1 timer.type * 2 ^ timer.n) cfg.t2 := by
  have hn : timer.n < 32 := by
    unfold IntervalOk at h
    split_ifs at h with hzero
    · omega
    · exact h.1
  exact (cfg.delay_eq_iff hn).2 h

end TimerConfig

/-! ## Client transactions -/

/-- The deadline of the retransmissions of a timer. -/
def TimerType.deadline : TimerType → TimerType
  | .STIMER_E => .STIMER_F
  | _ => .STIMER_H

/-- The timer that repeats a request. -/
def ReqMethod.retrTimer (method : ReqMethod) : TimerType :=
  if method = .INVITE then .STIMER_A else .STIMER_E

/-- The timer that ends it. -/
def ReqMethod.deadlineTimer (method : ReqMethod) : TimerType :=
  if method = .INVITE then .STIMER_B else .STIMER_F

theorem ReqMethod.retrTimer_slot {method : ReqMethod} : method.retrTimer.slot = 0 := by
  unfold retrTimer
  split_ifs
  · rfl
  · rfl

theorem ReqMethod.deadlineTimer_slot {method : ReqMethod} : method.deadlineTimer.slot = 1 := by
  unfold deadlineTimer
  split_ifs
  · rfl
  · rfl

/-- The timer that is set when timer A, E or G expires. -/
def TransTimer.next (timer : TransTimer) : TransTimer :=
  ⟨timer.type, (timer.n + 1) % 2 ^ 16⟩

/-- The timers of a client transaction. What repeats its request is new, or is `prev`. -/
structure SipTrans.Paced (cfg : TimerConfig) (prev : Option TransTimer) (t : SipTrans) : Prop where
  retr : ∀ x ∈ t.getTimer .STIMER_E, x.type = t.msg.method.retrTimer ∧
    (x.type = .STIMER_E → cfg.IntervalOk x ∧ (t.getTimer .STIMER_F).isSome)
  deadline : ∀ x ∈ t.getTimer .STIMER_F, x.type = t.msg.method.deadlineTimer
  abandoned : t.state = .TS_ABANDONED → t.getTimer .STIMER_E = none
  counted : ∀ x ∈ t.getTimer .STIMER_E, x.n = 0 ∨ prev = some x

open SipTrans

namespace SipTrans.Paced

variable {cfg : TimerConfig} {prev : Option TransTimer} {t s : SipTrans}

/-- Without timers. -/
theorem of_none (hretr : s.getTimer .STIMER_E = none) (hdeadline : s.getTimer .STIMER_F = none) :
    s.Paced cfg prev := by
  refine ⟨?_, ?_, fun _ => hretr, ?_⟩
  · rw [hretr]
    simp
  · rw [hdeadline]
    simp
  · rw [hretr]
    simp

theorem resetAllTimers : t.resetAllTimers.Paced cfg prev :=
  .of_none rfl rfl

variable (h : t.Paced cfg prev)

include h

/-- The third slot does not matter. -/
theorem congr (hm : s.msg.method = t.msg.method)
    (hretr : s.getTimer .STIMER_E = t.getTimer .STIMER_E)
    (hdeadline : s.getTimer .STIMER_F = t.getTimer .STIMER_F)
    (hstate : s.state = .TS_ABANDONED → t.state = .TS_ABANDONED) : s.Paced cfg prev where
  retr := by
    rw [hretr, hdeadline, hm]
    exact h.retr
  deadline := by
    rw [hdeadline, hm]
    exact h.deadline
  abandoned hs := by
    rw [hretr]
    exact h.abandoned (hstate hs)
  counted := by
    rw [hretr]
    exact h.counted

/-- Nothing is repeated any more. -/
theorem stop (hm : s.msg.method = t.msg.method) (hretr : s.getTimer .STIMER_E = none)
    (hdeadline : s.getTimer .STIMER_F = t.getTimer .STIMER_F ∨ s.getTimer .STIMER_F = none) :
    s.Paced cfg prev where
  retr := by
    rw [hretr]
    simp
  deadline := by
    rcases hdeadline with hdeadline | hdeadline
    · rw [hdeadline, hm]
      exact h.deadline
    · rw [hdeadline]
      simp
  abandoned _ := hretr
  counted := by
    rw [hretr]
    simp

theorem putTimer {timer : TransTimer} (hslot : timer.type.slot = 2) :
    (t.putTimer timer).Paced cfg prev := by
  refine h.congr rfl ?_ ?_ id
  all_goals
    simp only [SipTrans.getTimer, SipTrans.putTimer, get_put, hslot]
    rfl

theorem clearTimer {type : TimerType} (hslot : type.slot = 2) :
    (t.clearTimer type).Paced cfg prev := by
  refine h.congr rfl ?_ ?_ id
  all_goals
    simp only [SipTrans.getTimer, SipTrans.clearTimer, get_clear, hslot]
    rfl

theorem setState {state : TransState} (hstate : state ≠ .TS_ABANDONED) :
    (t.setState state).Paced cfg prev :=
  h.congr rfl rfl rfl fun hs => absurd hs hstate

/-- Timer A or E is cleared. -/
theorem clearRetr {type : TimerType} (hslot : type.slot = 0) {state : TransState} :
    ((t.clearTimer type).setState state).Paced cfg prev := by
  refine h.stop rfl ?_ (.inl ?_)
  all_goals
    simp only [SipTrans.getTimer, SipTrans.clearTimer, SipTrans.setState, get_clear, hslot]
    rfl

end SipTrans.Paced

/-! ### What a function does to one transaction -/

structure Effect.Paces (cfg : TimerConfig) (prev : Option TransTimer) (t : SipTrans) (new : ℕ)
    (e : Effect) : Prop where
  addr : ∀ s ∈ e.self, s.addr = t.addr
  self : ∀ s ∈ e.self, s.Paced cfg prev
  added : e.added = [] ∨ ∃ n, e.added = [n] ∧ n.addr = new ∧ n.Paced cfg none

namespace Effect.Paces

variable {cfg : TimerConfig} {prev : Option TransTimer} {t s : SipTrans} {new : ℕ}
  {log : List TransLog} {calls : List Call}

theorem removed : Paces cfg prev t new ⟨none, [], log, calls⟩ where
  addr := by
    rintro s ⟨⟩
  self := by
    rintro s ⟨⟩
  added := .inl rfl

theorem keepWith {added : List SipTrans} (haddr : s.addr = t.addr) (hs : s.Paced cfg prev)
    (hadded : added = [] ∨ ∃ n, added = [n] ∧ n.addr = new ∧ n.Paced cfg none) :
    Paces cfg prev t new ⟨some s, added, log, calls⟩ where
  addr := by
    rintro s ⟨⟩
    exact haddr
  self := by
    rintro s ⟨⟩
    exact hs
  added := hadded

theorem keep (haddr : s.addr = t.addr) (hs : s.Paced cfg prev) :
    Paces cfg prev t new ⟨some s, [], log, calls⟩ :=
  keepWith haddr hs (.inl rfl)

theorem andThen {n : NextIp} {e : Effect} (he : e.Paces cfg prev t new) (hadded : e.added = [])
    (hn : ∀ m ∈ n.clone, m.addr = new ∧ m.Paced cfg none) : (n.andThen e).Paces cfg prev t new := by
  refine ⟨he.addr, he.self, ?_⟩
  unfold NextIp.andThen
  rw [hadded, List.append_nil]
  cases hclone : n.clone with
  | none => exact .inl rfl
  | some m => exact .inr ⟨m, rfl, hn m hclone⟩

end Effect.Paces

/-! ### Requests -/

namespace SipTrans

variable {cfg : TimerConfig} {prev : Option TransTimer} {t : SipTrans}

theorem resent_timers (t : SipTrans) :
    t.resent.timers = t.awaitTimers t.msg.method.retrTimer t.msg.method.deadlineTimer := by
  unfold resent retrTimer deadlineTimer
  split_ifs
  · rfl
  · rfl

/-- A copy has the deadline, and repeats nothing yet. -/
theorem Paced.clone (h : t.Paced cfg prev) {addr : ℕ} {msg : TransMsg} {ts : List SipTarget}
    (hm : msg.method = t.msg.method) : (t.clone addr msg ts).Paced cfg none := by
  have hretr : (t.clone addr msg ts).getTimer .STIMER_E = none := clone_getTimer ..
  have hdeadline : (t.clone addr msg ts).getTimer .STIMER_F = t.getTimer .STIMER_F :=
    clone_getTimer ..
  have hnone := h.stop (by rw [clone_msg]; exact hm) hretr (.inl hdeadline)
  refine ⟨hnone.retr, hnone.deadline, hnone.abandoned, ?_⟩
  rw [hretr]
  simp

variable (hcfg : cfg.t1 .STIMER_E ≤ cfg.t2)

include hcfg

/-- A first timer of a request. -/
theorem intervalOk_zero {type : TimerType} (h : type = .STIMER_E) : cfg.IntervalOk ⟨type, 0⟩ := by
  unfold TimerConfig.IntervalOk
  rw [if_pos rfl, h]
  exact hcfg

/-- A transaction that has sent its request again. -/
theorem Paced.resent (h : t.Paced cfg prev) : t.resent.Paced cfg prev := by
  have hretr : t.resent.getTimer .STIMER_E = if !t.msg.localSocket.reliable then
      some ⟨t.msg.method.retrTimer, 0⟩ else t.getTimer .STIMER_E := by
    rw [getTimer, resent_timers]
    unfold awaitTimers getTimer
    dsimp only
    have hE : TimerType.STIMER_E.slot = 0 := rfl
    have hM : TimerType.STIMER_M.slot = 2 := rfl
    split_ifs
    all_goals simp [get_put, retrTimer_slot, deadlineTimer_slot, hE, hM]
  have hdeadline : t.resent.getTimer .STIMER_F =
      some ((t.getTimer .STIMER_F).getD ⟨t.msg.method.deadlineTimer, 0⟩) := by
    rw [getTimer, resent_timers]
    exact awaitTimers_deadline retrTimer_slot deadlineTimer_slot
  refine ⟨?_, ?_, ?_, ?_⟩
  · rw [hretr, hdeadline]
    intro x hx
    split_ifs at hx
    · cases hx
      exact ⟨rfl, fun htype => ⟨intervalOk_zero hcfg htype, rfl⟩⟩
    · exact ⟨(h.retr x hx).1, fun htype => ⟨((h.retr x hx).2 htype).1, rfl⟩⟩
  · rw [hdeadline]
    rintro x ⟨⟩
    cases hold : t.getTimer .STIMER_F with
    | none => rfl
    | some y => exact h.deadline y hold
  · intro hstate
    unfold SipTrans.resent at hstate
    split_ifs at hstate
  · rw [hretr]
    intro x hx
    split_ifs at hx
    · cases hx
      exact .inl rfl
    · exact h.counted x hx

/-- The transaction of a new request. -/
theorem updateUacRequest_paced (addr : ℕ) (junk : TransFlags) (msg : TransMsg) :
    (updateUacRequest addr junk msg).Paced cfg none := by
  have htimers : (updateUacRequest addr junk msg).timers =
      (if !msg.localSocket.reliable then Timers.empty.put ⟨msg.method.retrTimer, 0⟩
        else empty).put ⟨msg.method.deadlineTimer, 0⟩ := by
    unfold updateUacRequest retrTimer deadlineTimer
    split_ifs
    all_goals rfl
  have hmsg : (updateUacRequest addr junk msg).msg = msg := by
    rw [updateUacRequest_eq]
    rfl
  have hretr : (updateUacRequest addr junk msg).getTimer .STIMER_E =
      if !msg.localSocket.reliable then some ⟨msg.method.retrTimer, 0⟩ else none := by
    rw [getTimer, htimers, get_put, deadlineTimer_slot, if_neg (by decide)]
    split_ifs
    · rw [get_put, retrTimer_slot]
      rfl
    · rfl
  have hdeadline : (updateUacRequest addr junk msg).getTimer .STIMER_F =
      some ⟨msg.method.deadlineTimer, 0⟩ := by
    rw [getTimer, htimers, get_put, deadlineTimer_slot]
    rfl
  refine ⟨?_, ?_, ?_, ?_⟩
  · rw [hretr, hdeadline, hmsg]
    intro x hx
    split_ifs at hx
    · cases hx
      exact ⟨rfl, fun htype => ⟨intervalOk_zero hcfg htype, rfl⟩⟩
    · cases hx
  · rw [hdeadline, hmsg]
    rintro x ⟨⟩
    rfl
  · intro hstate
    have hlive := updateUacRequest_live addr junk msg
    unfold live at hlive
    rw [hstate] at hlive
    exact absurd hlive (by decide)
  · rw [hretr]
    intro x hx
    split_ifs at hx
    · cases hx
      exact .inl rfl
    · cases hx

end SipTrans

/-! ### Replies -/

section Functions

variable {cfg : TimerConfig} {prev : Option TransTimer} {t s : SipTrans} {new : ℕ}
  {net : Attempts} {reply : TransReply}

theorem timeout_paces (haddr : s.addr = t.addr) : (timeout s).Paces cfg prev t new := by
  unfold timeout
  dsimp only
  split_ifs
  · exact .removed
  · exact .keep haddr (.of_none rfl rfl)

theorem passReply_paces {r : Effect × Bool} (h : r.1.Paces cfg prev t new) :
    (passReply t reply r).Paces cfg prev t new :=
  { h with }

variable {timer : TransTimer}

/-- After its deadline a transaction has none. -/
theorem timerExpired_deadline (hslot : timer.type.slot = 1) :
    ∀ s ∈ (timerExpired net new t timer).self, s.getTimer .STIMER_F = none := by
  have htimeout : ∀ u : SipTrans, ∀ s ∈ (timeout u).self, s.getTimer .STIMER_F = none := by
    intro u s hs
    unfold timeout at hs
    dsimp only at hs
    split_ifs at hs
    · cases hs
    · cases hs
      rfl
  have hclear : ∀ type : TimerType, type.slot = 1 →
      (t.clearTimer type).getTimer .STIMER_F = none := by
    intro type htype
    show (t.timers.clear type).get .STIMER_F = none
    rw [get_clear, htype]
    rfl
  have habandoned : ∀ type : TimerType, type.slot = 1 →
      ∀ s ∈ (abandonedTimeout (t.clearTimer type)).self, s.getTimer .STIMER_F = none := by
    intro type htype s hs
    unfold abandonedTimeout at hs
    split_ifs at hs
    · cases hs
    · cases hs
      exact hclear type htype
  intro s hs
  have hends := timerExpired_ends net new t timer
  obtain ⟨type, n⟩ := timer
  cases type with
  | STIMER_B | STIMER_F =>
    rcases hends (by simp) with ⟨-, heq⟩ | ⟨-, heq⟩ | heq <;> rw [heq] at hs
    · exact htimeout _ s hs
    · exact habandoned _ rfl s hs
    · cases hs
  | STIMER_H =>
    unfold timerExpired timerH at hs
    split_ifs at hs
    · cases hstate : t.state
      all_goals rw [hstate] at hs
      case TS_PROCEEDING_REL =>
        cases hs
        exact hclear .STIMER_H rfl
      all_goals cases hs
    · cases hs
  | _ => cases hslot

theorem SipTrans.Paced.complete (h : t.Paced cfg prev) : t.complete.Paced cfg prev := by
  have hC : (t.clearTimer .STIMER_C).Paced cfg prev := h.clearTimer rfl
  exact (hC.setState (by decide)).putTimer rfl

section Failover

variable (haddr : s.addr = t.addr) (h : s.Paced cfg prev)

include haddr h

theorem passProvisional_paces : (passProvisional s).1.Paces cfg prev t new := by
  unfold passProvisional
  split_ifs
  · exact .keep haddr (h.putTimer rfl)
  · exact .keep haddr h
  · exact .keep haddr h

/-- `s` is the transaction after the failover. -/
theorem inviteError_paces {forgetReply : Bool} :
    (inviteError s reply forgetReply).1.Paces cfg prev t new := by
  unfold inviteError
  cases s.state with
  | TS_CALLING => exact .keep haddr Paced.resetAllTimers.complete
  | TS_PROCEEDING => exact .keep haddr h.complete
  | TS_ABANDONED | TS_TERMINATED =>
    split_ifs
    · exact .removed
    · exact .keep haddr (h.congr rfl rfl rfl id)
  | _ => exact .keep haddr h

/-- `s` is the transaction after the failover. -/
theorem nonInviteFinal_paces : (nonInviteFinal s reply).1.Paces cfg prev t new := by
  unfold nonInviteFinal
  cases s.state with
  | TS_TRYING | TS_CALLING | TS_PROCEEDING =>
    cases reply.localSocket with
    | none => exact .removed
    | some sock =>
      dsimp only
      split_ifs
      · refine .keep haddr (h.stop rfl ?_ (.inr ?_))
        all_goals
          simp [getTimer, get_put, get_clear, TimerType.slot]
      · exact .removed
  | TS_ABANDONED | TS_TERMINATED =>
    split_ifs
    · exact .removed
    · exact .keep haddr h
    · exact .keep haddr (h.congr rfl rfl rfl id)
  | _ => exact .keep haddr h

end Failover

variable (hcfg : cfg.t1 .STIMER_E ≤ cfg.t2) (h : t.Paced cfg prev)

include h

/-- The deadline of an abandoned transaction is over. -/
theorem abandonedTimeout_paces (hstate : t.state = .TS_ABANDONED) {type : TimerType}
    (hslot : type.slot = 1) :
    (abandonedTimeout (t.clearTimer type)).Paces cfg prev t new := by
  unfold abandonedTimeout
  split_ifs
  · exact .removed
  · refine .keep rfl (.of_none ?_ ?_)
    · show ((t.timers.clear type).put ⟨.STIMER_BL, 0⟩).get .STIMER_E = none
      rw [get_put, if_neg (by decide), get_clear, hslot, if_neg (by decide)]
      exact h.abandoned hstate
    · show ((t.timers.clear type).put ⟨.STIMER_BL, 0⟩).get .STIMER_F = none
      rw [get_put, if_neg (by decide), get_clear, hslot, if_pos (by decide)]

theorem provisionalReply_paces : (provisionalReply t).1.Paces cfg prev t new := by
  unfold provisionalReply
  cases t.state with
  | TS_CALLING => exact passProvisional_paces rfl (Paced.resetAllTimers.setState (by decide))
  | TS_TRYING => exact passProvisional_paces rfl (h.setState (by decide))
  | TS_PROCEEDING => exact passProvisional_paces rfl h
  | _ => exact .keep rfl (h.congr rfl rfl rfl id)

theorem invitePositive_paces : (invitePositive t reply).1.Paces cfg prev t new := by
  unfold invitePositive
  cases t.state with
  | TS_CALLING | TS_PROCEEDING => exact .keep rfl (.of_none rfl rfl)
  | TS_TERMINATED_200 =>
    split_ifs
    all_goals exact .keep rfl h
  | _ => exact .keep rfl (h.congr rfl rfl rfl id)

/-- Timer A or E expires. -/
theorem repeatTimer_paced (htimer : t.getTimer .STIMER_E = some timer)
    (hok : timer.type = .STIMER_E → cfg.IntervalOk timer.next) :
    (t.putTimer timer.next).Paced cfg (some timer.next) := by
  have hslot := slot_of_get htimer
  have hretr : (t.putTimer timer.next).getTimer .STIMER_E = some timer.next := by
    show (t.timers.put timer.next).get .STIMER_E = some timer.next
    rw [get_put]
    exact if_pos hslot.symm
  have hdeadline : (t.putTimer timer.next).getTimer .STIMER_F = t.getTimer .STIMER_F := by
    show (t.timers.put timer.next).get .STIMER_F = t.timers.get .STIMER_F
    rw [get_put, if_neg]
    show ¬(1 = timer.type.slot)
    rw [hslot]
    decide
  refine ⟨?_, ?_, ?_, ?_⟩
  · rw [hretr, hdeadline]
    rintro x ⟨⟩
    exact ⟨(h.retr timer htimer).1, fun htype => ⟨hok htype, ((h.retr timer htimer).2 htype).2⟩⟩
  · rw [hdeadline]
    exact h.deadline
  · intro hs
    have hnone := h.abandoned hs
    rw [htimer] at hnone
    cases hnone
  · rw [hretr]
    rintro x ⟨⟩
    exact .inr rfl

include hcfg

/-- The transaction, and the new one, after the failover. -/
theorem tryNextIp_paces (net : Attempts) (new : ℕ) (useNewTrans : Bool) :
    (tryNextIp net new t useNewTrans).tr.addr = t.addr ∧
      (tryNextIp net new t useNewTrans).tr.Paced cfg prev ∧
        ∀ m ∈ (tryNextIp net new t useNewTrans).clone, m.addr = new ∧ m.Paced cfg none := by
  have htries := tryNextIp_tries net new t useNewTrans
  have h' : (t.clearTimer .STIMER_M).Paced cfg prev := h.clearTimer rfl
  generalize tryNextIp net new t useNewTrans = n at htries
  cases htries with
  | failed msg targets hm => exact ⟨rfl, h'.congr hm rfl rfl id, by simp⟩
  | sent msg ts hm =>
    have hs : ((t.clearTimer .STIMER_M).retarget msg (some ts)).Paced cfg prev :=
      h'.congr hm rfl rfl id
    exact ⟨rfl, hs.resent hcfg, by simp⟩
  | cloned msg ts hm =>
    refine ⟨rfl, h'.congr rfl rfl rfl id, ?_⟩
    rintro m ⟨⟩
    exact ⟨clone_addr .., (h'.clone hm).resent hcfg⟩
  | stray msg ts hm =>
    refine ⟨rfl, h'.congr rfl rfl rfl id, ?_⟩
    rintro m ⟨⟩
    exact ⟨clone_addr .., h'.clone hm⟩

theorem inviteErrorReply_paces : (inviteErrorReply net new t reply).1.Paces cfg prev t new := by
  unfold inviteErrorReply
  split
  · by_cases hremote : reply.localSocket.isSome = true
    · rw [if_pos hremote]
      obtain ⟨haddr, htr, hclone⟩ := tryNextIp_paces hcfg h net new true
      exact .andThen (inviteError_paces haddr htr) (inviteError_added ..) hclone
    · obtain ⟨haddr, htr, hclone⟩ := tryNextIp_paces hcfg h net new false
      dsimp only
      split_ifs
      · exact .andThen (.keep haddr htr) rfl hclone
      · exact .andThen (inviteError_paces haddr htr) (inviteError_added ..) hclone
  · exact inviteError_paces rfl h

theorem nonInviteFinalReply_paces :
    (nonInviteFinalReply net new t reply).1.Paces cfg prev t new := by
  unfold nonInviteFinalReply
  by_cases hcode : reply.code = 503
  · obtain ⟨haddr, htr, hclone⟩ := tryNextIp_paces hcfg h net new false
    dsimp only
    split_ifs
    · exact .andThen (.keep haddr htr) rfl hclone
    · exact .andThen (nonInviteFinal_paces haddr htr) (nonInviteFinal_added ..) hclone
  · rw [if_neg hcode]
    exact nonInviteFinal_paces rfl h

theorem updateUacReply_paces : (updateUacReply net new t reply).1.Paces cfg prev t new := by
  unfold updateUacReply
  split_ifs
  · exact provisionalReply_paces h
  · exact inviteErrorReply_paces hcfg h
  · exact invitePositive_paces h
  · exact nonInviteFinalReply_paces hcfg h

/-! ### CANCEL and the timers -/

theorem cancelTrans_paces (env : CancelEnv) : (cancelTrans env new t).Paces cfg prev t new := by
  rcases cancelTrans_cases env new t with heq | ⟨-, heq⟩ | heq <;> rw [heq]
  · exact .keep rfl h
  · have hs : ((t.clearTimer .STIMER_A).setState .TS_ABANDONED).Paced cfg prev :=
      h.clearRetr rfl
    refine .keep rfl (hs.congr rfl ?_ ?_ fun _ => rfl)
    all_goals
      simp [getTimer, get_clear, TimerType.slot]
  · exact .keepWith rfl (h.congr rfl rfl rfl id)
      (.inr ⟨_, rfl, updateUacRequest_addr .., updateUacRequest_paced hcfg _ _ _⟩)

theorem timerExpired_paces (htimer : t.getTimer timer.type = some timer)
    (hok : timer.type = .STIMER_E → cfg.IntervalOk timer.next) :
    (timerExpired net new t timer).Paces cfg
      (if timer.type.slot = 0 then some timer.next else prev) t new := by
  have hends := timerExpired_ends net new t timer
  obtain ⟨type, n⟩ := timer
  cases type with
  | STIMER_A | STIMER_E => exact .keep rfl (repeatTimer_paced h htimer hok)
  | STIMER_G =>
    have htype := (h.retr _ htimer).1
    unfold retrTimer at htype
    split_ifs at htype
  | STIMER_H =>
    have htype := h.deadline _ htimer
    unfold deadlineTimer at htype
    split_ifs at htype
  | STIMER_B | STIMER_F =>
    rcases hends (by simp) with ⟨-, heq⟩ | ⟨hs, heq⟩ | heq <;> rw [heq]
    · exact timeout_paces rfl
    · exact abandonedTimeout_paces h hs rfl
    · exact .removed
  | STIMER_C => exact .keep rfl (h.clearTimer rfl)
  | STIMER_M =>
    show (timerExpired net new t ⟨.STIMER_M, n⟩).Paces cfg prev t new
    unfold timerExpired
    dsimp only
    obtain ⟨haddr, htr, hclone⟩ := tryNextIp_paces hcfg h net new true
    split_ifs
    · exact .andThen (.keep haddr (htr.clearRetr rfl)) rfl hclone
    · exact .andThen (.keep haddr htr) rfl hclone
  | _ => exact .removed

end Functions

/-! ## The interval and the deadline -/

/-- The interval is the right one, and its deadline is set. -/
def SipTrans.KeepsPace (cfg : TimerConfig) (t : SipTrans) : Prop :=
  ∀ x ∈ t.getTimer .STIMER_E, x.type = .STIMER_E ∨ x.type = .STIMER_G →
    cfg.delay x = min (cfg.t1 x.type * 2 ^ x.n) cfg.t2 ∧ t.timers.armed x.type.deadline = true

/-- What is asked of a timer that expires. -/
def SipTrans.ExpiryOk (cfg : TimerConfig) (t : SipTrans) (timer : TransTimer) : Prop :=
  (timer.type = .STIMER_E ∨ timer.type = .STIMER_G → cfg.IntervalOk timer.next) ∧
    (timer.type = .STIMER_H → t.state = .TS_PROCEEDING_REL → t.timers.armed .STIMER_G = false)

instance (cfg : TimerConfig) (t : SipTrans) (timer : TransTimer) :
    Decidable (t.ExpiryOk cfg timer) :=
  inferInstanceAs (Decidable (_ ∧ _))

theorem SipTrans.Paced.keepsPace {cfg : TimerConfig} {prev : Option TransTimer} {t : SipTrans}
    (h : t.Paced cfg prev) : t.KeepsPace cfg := by
  intro x hx htype
  obtain ⟨hretr, hE⟩ := h.retr x hx
  have hinvite : t.msg.method ≠ .INVITE := by
    intro hm
    unfold retrTimer at hretr
    rw [if_pos hm] at hretr
    rw [hretr] at htype
    simp at htype
  have hxE : x.type = .STIMER_E := by
    rw [hretr]
    exact if_neg hinvite
  obtain ⟨hok, hsome⟩ := hE hxE
  refine ⟨hok.delay_eq, ?_⟩
  obtain ⟨y, hy⟩ := Option.isSome_iff_exists.1 hsome
  have hyF := (h.deadline y hy).trans (if_neg hinvite)
  rw [hxE]
  show (t.timers.get .STIMER_F).any _ = true
  rw [show t.timers.get .STIMER_F = some y from hy]
  simp [hyF, TimerType.deadline]

/-- Without the deadline nothing is repeated. -/
theorem SipTrans.KeepsPace.of_deadline {cfg : TimerConfig} {t : SipTrans} (h : t.KeepsPace cfg)
    (hnone : t.getTimer .STIMER_F = none) :
    ∀ x ∈ t.getTimer .STIMER_E, x.type ≠ .STIMER_E ∧ x.type ≠ .STIMER_G := by
  intro x hx
  have harmed : ∀ type : TimerType, type.slot = 1 → t.timers.armed type = false := by
    intro type hslot
    unfold Timers.armed Timers.get
    rw [hslot]
    show (t.getTimer .STIMER_F).any _ = false
    rw [hnone]
    rfl
  constructor
  · intro htype
    have hF := (h x hx (.inl htype)).2
    rw [htype, harmed _ rfl] at hF
    exact Bool.false_ne_true hF
  · intro htype
    have hH := (h x hx (.inr htype)).2
    rw [htype, harmed _ rfl] at hH
    exact Bool.false_ne_true hH

end Sems
