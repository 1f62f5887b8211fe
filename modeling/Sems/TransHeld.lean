import Sems.TransRuns

/-!
# No client transaction stays for ever

Every client transaction in a bucket has a timer that ends with its removal (`SipTrans.Held`) :
timer B or F until the answer, C after a provisional reply to an INVITE, D, K or L after a final
one, and BL after a timeout, unless the handler of timer C is at work.

Two steps do not keep this (`TransBucket.HeldOk`). The failover for a 503 reply clears the slot of
timer M, in which an answered transaction has timer K or BL. And a failover with a new transaction
leaves that transaction without a state when no target can be reached.
-/

namespace Sems

open Timers TimerType

/-- Timer B or F. -/
def SipTrans.deadline (t : SipTrans) : Bool :=
  t.timers.armed .STIMER_B || t.timers.armed .STIMER_F

/-- A timer is set that ends with the removal of the transaction. -/
def SipTrans.removable (t : SipTrans) : Bool :=
  t.deadline || t.timers.armed .STIMER_C || t.timers.armed .STIMER_D || t.timers.armed .STIMER_K ||
    t.timers.armed .STIMER_L || t.timers.armed .STIMER_BL

/-- The timer a transaction has in its state. -/
def SipTrans.HeldIn (inTimerC : Bool) (t : SipTrans) : Prop :=
  match t.state with
  | .TS_CALLING => t.msg.method = .INVITE ∧ t.deadline
  | .TS_TRYING => t.msg.method ≠ .INVITE ∧ t.deadline
  | .TS_PROCEEDING =>
    if t.msg.method = .INVITE then t.timers.armed .STIMER_C ∨ inTimerC else t.deadline
  | .TS_COMPLETED => t.timers.armed .STIMER_D ∨ t.timers.armed .STIMER_K
  | .TS_TERMINATED_200 => t.timers.armed .STIMER_L
  | .TS_TERMINATED => t.timers.armed .STIMER_BL
  | .TS_ABANDONED => t.deadline ∨ t.timers.armed .STIMER_BL
  | _ => False

structure SipTrans.Held (inTimerC : Bool) (t : SipTrans) : Prop where
  state : t.HeldIn inTimerC
  /-- Timer H is not one of a client transaction. -/
  noH : t.timers.armed .STIMER_H = false
  failsOver : t.timers.armed .STIMER_M → t.deadline

open SipTrans

variable {t : SipTrans}

theorem SipTrans.Held.removable (h : t.Held false) : t.removable = true := by
  have hstate := h.state
  unfold HeldIn at hstate
  unfold SipTrans.removable
  cases hs : t.state
  all_goals
    rw [hs] at hstate
    simp only [Bool.false_eq_true, or_false] at hstate
  case TS_PROCEEDING =>
    split_ifs at hstate
    all_goals simp [hstate]
  case TS_COMPLETED | TS_ABANDONED =>
    rcases hstate with hstate | hstate
    all_goals simp [hstate]
  all_goals simp [hstate]

theorem SipTrans.Held.state_ne {c : Bool} (h : t.Held c) : t.state ≠ .TS_0 := by
  intro hs
  have hstate := h.state
  unfold HeldIn at hstate
  rw [hs] at hstate
  exact hstate

theorem SipTrans.Held.of_imp {c c' : Bool} (h : t.Held c) (hc : c = true → c' = true) :
    t.Held c' := by
  refine ⟨?_, h.noH, h.failsOver⟩
  have hstate := h.state
  unfold HeldIn at hstate ⊢
  cases hs : t.state
  all_goals rw [hs] at hstate
  case TS_PROCEEDING =>
    split_ifs at hstate ⊢ with hm
    · exact hstate.imp_right hc
    · exact hstate
  all_goals exact hstate

/-! ## What a function does to one transaction -/

structure Effect.Holds (c : Bool) (t : SipTrans) (new : ℕ) (e : Effect) : Prop where
  addr : ∀ s ∈ e.self, s.addr = t.addr
  self : ∀ s ∈ e.self, s.Held (c || inTimerC e.calls t.addr)
  added : e.added = [] ∨ ∃ n, e.added = [n] ∧ n.addr = new ∧ n.Held false

namespace Effect.Holds

variable {c : Bool} {s : SipTrans} {new : ℕ} {log : List TransLog} {calls : List Call}

theorem removed : Holds c t new ⟨none, [], log, calls⟩ where
  addr := by
    rintro s ⟨⟩
  self := by
    rintro s ⟨⟩
  added := .inl rfl

theorem keepWith {added : List SipTrans} (haddr : s.addr = t.addr) (hs : s.Held c)
    (hadded : added = [] ∨ ∃ n, added = [n] ∧ n.addr = new ∧ n.Held false) :
    Holds c t new ⟨some s, added, log, calls⟩ where
  addr := by
    rintro s ⟨⟩
    exact haddr
  self := by
    rintro s ⟨⟩
    exact hs.of_imp fun hc => Bool.or_eq_true_iff.2 (.inl hc)
  added := hadded

theorem keep (haddr : s.addr = t.addr) (hs : s.Held c) : Holds c t new ⟨some s, [], log, calls⟩ :=
  keepWith haddr hs (.inl rfl)

end Effect.Holds

/-! ## Timers -/

theorem TimerType.of_slot_one {type : TimerType} (h : type.slot = 1) :
    type = .STIMER_B ∨ type = .STIMER_F ∨ type = .STIMER_H := by
  cases type
  all_goals simp [slot] at h ⊢

variable {ts : Timers} {timer : TransTimer}

/-- What is in the slot of timer B is B or F. -/
theorem Timers.deadline_of_get (h : ts.get .STIMER_B = some timer)
    (hH : ts.armed .STIMER_H = false) :
    (ts.armed .STIMER_B || ts.armed .STIMER_F) = true := by
  have hget : ∀ type : TimerType, type.slot = 1 → ts.get type = some timer := by
    intro type htype
    rw [← h]
    unfold get
    rw [htype]
    rfl
  unfold armed at hH ⊢
  rw [hget .STIMER_H rfl] at hH
  rw [hget .STIMER_B rfl, hget .STIMER_F rfl]
  rcases of_slot_one (slot_of_get h) with htype | htype | htype
  · simp [htype]
  · simp [htype]
  · simp [htype] at hH

/-- Timer B or F, and not H. -/
def Timers.Deadlined (ts : Timers) : Prop :=
  (ts.armed .STIMER_B || ts.armed .STIMER_F) = true ∧ ts.armed .STIMER_H = false

/-- The other slots do not matter. -/
theorem Timers.Deadlined.put (h : ts.Deadlined) (hslot : timer.type.slot ≠ 1) :
    (ts.put timer).Deadlined := by
  have harmed : ∀ type : TimerType, type.slot = 1 → (ts.put timer).armed type = ts.armed type := by
    intro type htype
    rw [armed_put, htype, if_neg hslot.symm]
  unfold Deadlined
  rw [harmed _ rfl, harmed _ rfl, harmed _ rfl]
  exact h

theorem Timers.deadlined_put (h : timer.type = .STIMER_B ∨ timer.type = .STIMER_F) :
    (ts.put timer).Deadlined := by
  unfold Deadlined
  rw [armed_put, armed_put, armed_put]
  rcases h with h | h
  · simp [h, slot]
  · simp [h, slot]

namespace SipTrans

variable {c : Bool}

theorem awaitTimers_deadlined {retr ddl : TimerType} (hretr : retr.slot = 0)
    (hddl : ddl = .STIMER_B ∨ ddl = .STIMER_F) (hH : t.timers.armed .STIMER_H = false) :
    (t.awaitTimers retr ddl).Deadlined := by
  have hslot : ddl.slot = 1 := by rcases hddl with rfl | rfl <;> rfl
  have hget : (t.awaitTimers retr ddl).get .STIMER_F = _ := awaitTimers_deadline hretr hslot
  have hne : ((t.getTimer .STIMER_F).getD ⟨ddl, 0⟩).type ≠ .STIMER_H := by
    cases h : t.getTimer .STIMER_F with
    | none => rcases hddl with rfl | rfl <;> decide
    | some timer =>
      unfold armed at hH
      rw [show t.timers.get .STIMER_H = some timer from h] at hH
      simpa using hH
  have hH' : (t.awaitTimers retr ddl).armed .STIMER_H = false :=
    (congrArg (Option.any _) hget).trans (decide_eq_false hne)
  exact ⟨deadline_of_get hget hH', hH'⟩

/-- A transaction that waits for the answer to its request is held by its deadline. -/
theorem held_of_deadlined (h : t.timers.Deadlined)
    (hstate : t.state = if t.msg.method = .INVITE then .TS_CALLING else .TS_TRYING) : t.Held c := by
  refine ⟨?_, h.2, fun _ => h.1⟩
  unfold HeldIn
  by_cases hm : t.msg.method = .INVITE
  · rw [hstate, if_pos hm]
    exact ⟨hm, h.1⟩
  · rw [hstate, if_neg hm]
    exact ⟨hm, h.1⟩

/-- A transaction that has sent its request has its deadline. -/
theorem held_resent (hH : t.timers.armed .STIMER_H = false) : t.resent.Held c := by
  refine held_of_deadlined ?_ rfl
  unfold resent
  split_ifs
  · exact awaitTimers_deadlined rfl (.inl rfl) hH
  · exact awaitTimers_deadlined rfl (.inr rfl) hH

/-- Only the state, the method and the timers matter, and of these not those of the first slot. -/
theorem Held.congr {s : SipTrans} (h : t.Held c) (hstate : s.state = t.state)
    (hm : s.msg.method = t.msg.method)
    (harmed : ∀ type : TimerType, type.slot ≠ 0 → s.timers.armed type = t.timers.armed type) :
    s.Held c := by
  have hdeadline : s.deadline = t.deadline := by
    unfold deadline
    rw [harmed .STIMER_B (by decide), harmed .STIMER_F (by decide)]
  refine ⟨?_, ?_, ?_⟩
  · have h' := h.state
    unfold HeldIn at h' ⊢
    rw [hstate, hm, hdeadline, harmed .STIMER_C (by decide), harmed .STIMER_D (by decide),
      harmed .STIMER_K (by decide), harmed .STIMER_L (by decide), harmed .STIMER_BL (by decide)]
    exact h'
  · rw [harmed .STIMER_H (by decide)]
    exact h.noH
  · rw [harmed .STIMER_M (by decide), hdeadline]
    exact h.failsOver

/-- Timer C or M does not hold the transaction, unless it is timer C and its handler goes on with
it. -/
theorem Held.clear (h : t.Held c)
    (htimer : t.getTimer timer.type = some timer)
    (htype : timer.type = .STIMER_M ∨ timer.type = .STIMER_C) :
    (t.clearTimer timer.type).Held (c || decide (timer.type = .STIMER_C)) := by
  have hslot : timer.type.slot = 2 := by
    rcases htype with htype | htype
    all_goals rw [htype]; rfl
  -- nothing else is in its slot
  have hother : ∀ type : TimerType, type.slot = 2 → type ≠ timer.type →
      t.timers.armed type = false := by
    intro type hs hne
    have hget : t.timers.get type = some timer := by
      rw [← htimer]
      unfold getTimer Timers.get
      rw [hs, hslot]
    unfold Timers.armed
    rw [hget]
    simp [hne.symm]
  have hkept : ∀ type : TimerType, type.slot = 1 →
      (t.timers.clear timer.type).armed type = t.timers.armed type := by
    intro type hs
    rw [Timers.armed_clear, hs, hslot]
    rfl
  have hdeadline : (t.clearTimer timer.type).deadline = t.deadline := by
    unfold deadline clearTimer
    rw [hkept _ rfl, hkept _ rfl]
  have hne : ∀ type : TimerType, type ≠ .STIMER_M → type ≠ .STIMER_C → type ≠ timer.type := by
    intro type hM hC heq
    rcases htype with htype | htype
    · exact hM (heq.trans htype)
    · exact hC (heq.trans htype)
  refine ⟨?_, ?_, ?_⟩
  · have h' := h.state
    unfold HeldIn at h' ⊢
    rw [hother .STIMER_D rfl (hne _ (by decide) (by decide)),
      hother .STIMER_K rfl (hne _ (by decide) (by decide)),
      hother .STIMER_L rfl (hne _ (by decide) (by decide)),
      hother .STIMER_BL rfl (hne _ (by decide) (by decide))] at h'
    rw [hdeadline]
    cases hs : t.state
    all_goals
      simp only [clearTimer, hs, Bool.false_eq_true, or_false, Bool.or_eq_true,
        decide_eq_true_eq] at h' ⊢
    case TS_PROCEEDING =>
      split_ifs at h' ⊢ with hm
      · rcases h' with hC | hc
        · refine .inr (.inr ?_)
          by_contra hne
          rw [hother .STIMER_C rfl (Ne.symm hne)] at hC
          exact Bool.false_ne_true hC
        · exact .inr (.inl hc)
      · exact h'
    case TS_ABANDONED => exact .inl h'
    all_goals exact h'
  · rw [clearTimer, hkept _ rfl]
    exact h.noH
  · rw [clearTimer, Timers.armed_clear, hslot]
    exact fun hM => absurd hM Bool.false_ne_true

end SipTrans

/-! ## The failover -/

/-- A request is sent to one of the targets, and a message can be made for those before it. -/
def reached (net : Attempts) (flags : TransFlags) : List SipTarget → Bool
  | [] => false
  | _ :: ts =>
    if !flags.disableBl && (net ts.length).blacklisted then reached net flags ts
    else
      (net ts.length).socket.isSome && (net ts.length).generated &&
        ((net ts.length).sent || reached net flags ts)

/-- If the request is not sent to the first target of a new transaction, it is sent to a later one.
-/
def NoStray (net : Attempts) (t : SipTrans) : Prop :=
  ∀ tgt ts, getNext net t.flags (t.targets.getD []) = some (tgt, ts) →
    (net ts.length).socket.isSome → (net ts.length).generated →
      (net ts.length).sent ∨ reached net t.flags ts

theorem resend_of_reached {net : Attempts} {targets : List SipTarget} (tr : SipTrans)
    (h : reached net tr.flags targets = true) : (tr.resend net targets).2.2 = true := by
  induction targets generalizing tr with
  | nil => exact absurd h Bool.false_ne_true
  | cons tgt ts ih =>
    unfold reached at h
    unfold resend
    by_cases hbl : (!tr.flags.disableBl && (net ts.length).blacklisted) = true
    · rw [if_pos hbl] at h ⊢
      exact ih tr h
    rw [if_neg hbl, Bool.and_eq_true, Bool.and_eq_true, Bool.or_eq_true] at h
    obtain ⟨⟨hsock, hgen⟩, hsent⟩ := h
    obtain ⟨sock, hsock⟩ := Option.isSome_iff_exists.1 hsock
    rw [if_neg hbl, hsock]
    dsimp only
    rw [hgen, Bool.not_true, Bool.and_false, if_neg Bool.false_ne_true]
    by_cases hs : (net ts.length).sent = true
    · rw [if_pos hs]
    · rw [if_neg hs]
      exact ih _ (hsent.resolve_left hs)

variable {net : Attempts} {addr : ℕ} {tr : SipTrans} (h : NoStray net tr)

include h

theorem cloneNext_ok (hclone : (cloneNext net addr tr (tr.targets.getD [])).clone.isSome) :
    (cloneNext net addr tr (tr.targets.getD [])).ok = true := by
  unfold cloneNext at hclone ⊢
  cases hnext : getNext net tr.flags (tr.targets.getD []) with
  | none => simp [hnext] at hclone
  | some next =>
    obtain ⟨tgt, ts⟩ := next
    rw [hnext] at hclone
    dsimp only at hclone ⊢
    cases hsock : (net ts.length).socket with
    | none => simp [hsock] at hclone
    | some sock =>
      rw [hsock] at hclone
      by_cases hgen : (net ts.length).generated = true
      · have hreach := h tgt ts hnext (by rw [hsock]; rfl) hgen
        simp only [hgen, Bool.not_true, Bool.false_eq_true, if_false]
        split_ifs with hsent
        · rfl
        · refine resend_of_reached _ ?_
          rw [clone_eq]
          exact hreach.resolve_left hsent
      · simp [hgen] at hclone

theorem tryNextIp_ok (hclone : (tryNextIp net addr tr true).clone.isSome) :
    (tryNextIp net addr tr true).ok = true := by
  unfold tryNextIp at hclone ⊢
  have h' : NoStray net (tr.clearTimer .STIMER_M) := h
  have hcloneNext := @cloneNext_ok net addr _ h'
  generalize tr.clearTimer .STIMER_M = tr at hclone hcloneNext
  dsimp only at hclone ⊢
  cases htargets : tr.targets with
  | none => simp [htargets] at hclone
  | some targets =>
    rw [htargets] at hclone hcloneNext
    exact hcloneNext hclone

omit h

/-! ## Replies -/

section Replies

variable {s : SipTrans} {c : Bool} {new : ℕ} {net : Attempts} {reply : TransReply}

theorem timeout_holds : (timeout t).Holds c t new := by
  unfold timeout
  dsimp only
  split_ifs
  · exact .removed
  · refine .keep rfl ⟨?_, ?_, ?_⟩
    all_goals simp [HeldIn, armed_put, slot]

theorem passReply_holds {r : Effect × Bool} (h : r.1.Holds c t new) :
    (passReply t reply r).Holds c t new :=
  { h with }

theorem passProvisional_holds (haddr : s.addr = t.addr) (hstate : s.state = .TS_PROCEEDING)
    (hm : s.msg.method ≠ .INVITE → s.Held c) (hH : s.timers.armed .STIMER_H = false) :
    (passProvisional s).1.Holds c t new := by
  unfold passProvisional
  split_ifs with hcancel hinvite
  · refine .keep haddr ⟨?_, ?_, ?_⟩
    · simp [HeldIn, hstate, hinvite, armed_put, slot]
    · simp [armed_put, slot, hH]
    · simp [armed_put, slot]
  · exact .keep haddr (hm hinvite)
  · refine .keep haddr (hm ?_)
    rw [not_not.1 hcancel]
    exact ReqMethod.noConfusion

theorem provisionalReply_holds (h : t.Held c) : (provisionalReply t).1.Holds c t new := by
  have hstate := h.state
  unfold HeldIn at hstate
  unfold provisionalReply
  cases hs : t.state with
  | TS_CALLING =>
    rw [hs] at hstate
    exact passProvisional_holds rfl rfl (fun hm => absurd hstate.1 hm) rfl
  | TS_TRYING =>
    rw [hs] at hstate
    refine passProvisional_holds rfl rfl (fun hm => ⟨?_, h.noH, h.failsOver⟩) h.noH
    show if t.msg.method = .INVITE then _ else t.deadline = true
    rw [if_neg hstate.1]
    exact hstate.2
  | TS_PROCEEDING => exact passProvisional_holds rfl hs (fun _ => h) h.noH
  | _ => exact .keep rfl (h.congr rfl rfl fun _ _ => rfl)

theorem SipTrans.held_complete (hH : t.timers.armed .STIMER_H = false) : t.complete.Held c := by
  unfold complete
  refine ⟨?_, ?_, ?_⟩
  · simp [HeldIn, armed_put, slot]
  · simp [armed_put, armed_clear, slot, hH]
  · simp [armed_put, slot]

/-- `s` is the transaction after the failover. -/
theorem inviteError_holds {forgetReply : Bool} (haddr : s.addr = t.addr)
    (hH : s.timers.armed .STIMER_H = false)
    (hs : ¬ (s.state = .TS_CALLING ∨ s.state = .TS_PROCEEDING) → s.Held c) :
    (inviteError s reply forgetReply).1.Holds c t new := by
  unfold inviteError
  cases hstate : s.state with
  | TS_CALLING => exact .keep haddr (held_complete rfl)
  | TS_PROCEEDING => exact .keep haddr (held_complete hH)
  | TS_ABANDONED | TS_TERMINATED =>
    split_ifs
    · exact .removed
    · exact .keep haddr ((hs (by simp [hstate])).congr rfl rfl fun _ _ => rfl)
  | _ => exact .keep haddr (hs (by simp [hstate]))

theorem andThen_holds {n : NextIp} {e : Effect} (he : e.Holds c t new) (hadded : e.added = [])
    (hn : ∀ m ∈ n.clone, m.addr = new ∧ m.Held false) : (n.andThen e).Holds c t new := by
  refine ⟨he.addr, he.self, ?_⟩
  unfold NextIp.andThen
  rw [hadded, List.append_nil]
  cases hclone : n.clone with
  | none => exact .inl rfl
  | some m => exact .inr ⟨m, rfl, hn m hclone⟩

/-- The new transaction of a failover. -/
theorem clone_held {msg : TransMsg} {ts : List SipTarget}
    (hH : t.timers.armed .STIMER_H = false) :
    ∀ m ∈ some (t.clone new msg ts).resent, m.addr = new ∧ m.Held false := by
  rintro m ⟨⟩
  refine ⟨clone_addr .., held_resent ?_⟩
  exact (congrArg (Option.any _) (clone_getTimer new msg ts)).trans hH

theorem clearM_noH (h : t.Held c) : (t.clearTimer .STIMER_M).timers.armed .STIMER_H = false := by
  simp [armed_clear, slot, h.noH]

theorem inviteErrorReply_holds (h : t.Held c)
    (hok : reply.code = 503 → t.state = .TS_CALLING ∨ t.state = .TS_PROCEEDING →
      reply.localSocket.isSome → NoStray net t) :
    (inviteErrorReply net new t reply).1.Holds c t new := by
  have hH := clearM_noH h
  unfold inviteErrorReply
  by_cases hcond : reply.code = 503 ∧ (t.state = .TS_CALLING ∨ t.state = .TS_PROCEEDING)
  · split_ifs with hremote
    · have htries := tryNextIp_tries net new t true
      have hstray := @tryNextIp_ok net new t (hok hcond.1 hcond.2 hremote)
      generalize tryNextIp net new t true = n at htries hstray
      cases htries with
      | failed msg targets hm =>
        exact andThen_holds (inviteError_holds rfl hH (absurd hcond.2)) (inviteError_added ..)
          (by simp)
      | stray msg ts hm => exact absurd (hstray rfl) Bool.false_ne_true
      | cloned msg ts hm =>
        exact andThen_holds (inviteError_holds rfl hH (absurd hcond.2)) (inviteError_added ..)
          (clone_held hH)
    · have htries := tryNextIp_tries net new t false
      generalize tryNextIp net new t false = n at htries
      cases htries with
      | failed msg targets hm =>
        exact andThen_holds (inviteError_holds rfl hH (absurd hcond.2)) (inviteError_added ..)
          (by simp)
      | sent msg ts hm => exact .keep rfl (held_resent hH)
  · rw [if_neg hcond]
    exact inviteError_holds rfl h.noH (fun _ => h)

theorem invitePositive_holds (h : t.Held c) : (invitePositive t reply).1.Holds c t new := by
  unfold invitePositive
  cases hs : t.state with
  | TS_CALLING | TS_PROCEEDING =>
    refine .keep rfl ⟨?_, ?_, ?_⟩
    all_goals simp [HeldIn, armed_put, slot]
  | TS_TERMINATED_200 =>
    split_ifs
    all_goals exact .keep rfl h
  | _ => exact .keep rfl (h.congr rfl rfl fun _ _ => rfl)

/-- `s` is the transaction after the failover. -/
theorem nonInviteFinal_holds (haddr : s.addr = t.addr)
    (hs : s.live = false → s.Held c ∨ (reply.localSocket = none ∧ reply.code = 503 ∧
      (s.state = .TS_ABANDONED ∨ s.state = .TS_TERMINATED))) :
    (nonInviteFinal s reply).1.Holds c t new := by
  unfold nonInviteFinal
  cases hstate : s.state with
  | TS_TRYING | TS_CALLING | TS_PROCEEDING =>
    cases reply.localSocket with
    | none => exact .removed
    | some sock =>
      dsimp only
      split_ifs
      · refine .keep haddr ⟨?_, ?_, ?_⟩
        all_goals simp [HeldIn, armed_put, armed_clear, slot]
      · exact .removed
  | TS_ABANDONED | TS_TERMINATED =>
    rcases hs (by simp [live, hstate]) with hs | ⟨hlocal, hcode, -⟩
    · split_ifs
      · exact .removed
      · exact .keep haddr hs
      · exact .keep haddr (hs.congr rfl rfl fun _ _ => rfl)
    · rw [hlocal, hcode]
      exact .removed
  | _ =>
    rcases hs (by simp [live, hstate]) with hs | ⟨-, -, hs | hs⟩
    · exact .keep haddr hs
    · exact absurd (hstate.symm.trans hs) TransState.noConfusion
    · exact absurd (hstate.symm.trans hs) TransState.noConfusion

theorem tryNextIp_of_reached (h : reached net t.flags (t.targets.getD []) = true) :
    (tryNextIp net new t false).ok = true := by
  unfold tryNextIp
  simp only [clearTimer]
  cases htargets : t.targets with
  | none =>
    rw [htargets] at h
    exact absurd h Bool.false_ne_true
  | some targets =>
    rw [htargets] at h
    exact resend_of_reached _ h

/-- A 503 reply does not take the last timer of the transaction. -/
def SparesTimer (net : Attempts) (t : SipTrans) (reply : TransReply) : Prop :=
  t.live ∨ (t.state = .TS_ABANDONED ∧ t.deadline) ∨ reached net t.flags (t.targets.getD []) ∨
    (reply.localSocket = none ∧ (t.state = .TS_ABANDONED ∨ t.state = .TS_TERMINATED))

theorem nonInviteFinalReply_holds (h : t.Held c)
    (hok : reply.code = 503 → SparesTimer net t reply) :
    (nonInviteFinalReply net new t reply).1.Holds c t new := by
  have hH := clearM_noH h
  unfold nonInviteFinalReply
  split_ifs with hcode
  · have htries := tryNextIp_tries net new t false
    have hreached := @tryNextIp_of_reached t new net
    generalize tryNextIp net new t false = n at htries hreached
    cases htries with
    | sent msg ts hm => exact .keep rfl (held_resent hH)
    | failed msg targets hm =>
      refine andThen_holds (nonInviteFinal_holds rfl fun hlive => ?_) (nonInviteFinal_added ..)
        (by simp)
      rcases hok hcode with hok | ⟨hstate, hdeadline⟩ | hok | ⟨hlocal, hstate⟩
      · exact absurd (hok.symm.trans hlive) (by decide)
      · refine .inl ⟨?_, hH, ?_⟩
        · unfold HeldIn
          rw [show ((t.clearTimer .STIMER_M).retarget msg targets).state = .TS_ABANDONED from
            hstate]
          refine .inl ?_
          simpa [deadline, retarget, armed_clear, slot]
            using hdeadline
        · simp [retarget, armed_clear, slot]
      · exact absurd (hreached hok) Bool.false_ne_true
      · exact .inr ⟨hlocal, hcode, hstate⟩
  · exact nonInviteFinal_holds rfl fun _ => .inl h

end Replies

/-! ## CANCEL and the timers -/

section Timers

variable {c : Bool} {new : ℕ} (junk : TransFlags) (msg : TransMsg)

theorem updateUacRequest_deadlined : (updateUacRequest new junk msg).timers.Deadlined := by
  unfold updateUacRequest
  by_cases hm : msg.method = .INVITE
  · rw [if_pos hm]
    exact deadlined_put (.inl rfl)
  · rw [if_neg hm]
    exact deadlined_put (.inr rfl)

theorem updateUacRequest_state :
    (updateUacRequest new junk msg).state =
      if (updateUacRequest new junk msg).msg.method = .INVITE then .TS_CALLING else .TS_TRYING := by
  rw [updateUacRequest_eq]
  rfl

/-- The transaction of a new request. -/
theorem held_updateUacRequest : (updateUacRequest new junk msg).Held c :=
  held_of_deadlined (updateUacRequest_deadlined junk msg) (updateUacRequest_state junk msg)

theorem cancelTrans_holds (env : CancelEnv) (h : t.Held c) :
    (cancelTrans env new t).Holds c t new := by
  rcases cancelTrans_cases env new t with heq | ⟨hs, heq⟩ | heq <;> rw [heq]
  · exact .keep rfl h
  · have hdeadline := h.state
    unfold HeldIn at hdeadline
    rw [hs] at hdeadline
    refine .keep rfl ⟨?_, ?_, ?_⟩
    · refine .inl ?_
      simpa [deadline, armed_clear, slot] using hdeadline.2
    · simp [armed_clear, slot, h.noH]
    · simp [armed_clear, slot]
  · exact .keepWith rfl (h.congr rfl rfl fun _ _ => rfl)
      (.inr ⟨_, rfl, updateUacRequest_addr .., held_updateUacRequest _ _⟩)

theorem Effect.Holds.of_clearTimer {type : TimerType} {e : Effect}
    (h : e.Holds c (t.clearTimer type) new) : e.Holds c t new :=
  { h with }

theorem abandonedTimeout_holds (hstate : t.state = .TS_ABANDONED)
    (hH : t.timers.armed .STIMER_H = false) : (abandonedTimeout t).Holds c t new := by
  unfold abandonedTimeout
  split_ifs
  · exact .removed
  · refine .keep rfl ⟨?_, ?_, ?_⟩
    all_goals simp [HeldIn, hstate, hH, armed_put, slot]

theorem timerExpired_holds (h : t.Held c)
    (htimer : t.getTimer timer.type = some timer)
    (hok : timer.type = .STIMER_M → NoStray net t) :
    (timerExpired net new t timer).Holds c t new := by
  have hclear : ∀ type : TimerType, type.slot = 1 →
      (t.clearTimer type).timers.armed .STIMER_H = false := by
    intro type hs
    rw [clearTimer, armed_clear, hs]
    rfl
  have hends := timerExpired_ends net new t timer
  obtain ⟨type, n⟩ := timer
  cases type with
  | STIMER_A | STIMER_E | STIMER_G =>
    refine .keep rfl (h.congr rfl rfl fun type hs => ?_)
    rw [repeatTimer, putTimer, armed_put]
    exact if_neg hs
  | STIMER_B | STIMER_F =>
    rcases hends (by simp) with ⟨-, heq⟩ | ⟨hs, heq⟩ | heq <;> rw [heq]
    · exact .of_clearTimer timeout_holds
    · exact .of_clearTimer (abandonedTimeout_holds hs (hclear _ rfl))
    · exact .removed
  | STIMER_C =>
    have hheld := h.clear htimer (.inr rfl)
    refine ⟨?_, ?_, .inl rfl⟩
    · rintro s ⟨⟩
      rfl
    · rintro s ⟨⟩
      rw [show inTimerC (timerExpired net new t ⟨.STIMER_C, n⟩).calls t.addr = true by
        simp [timerExpired, inTimerC]]
      exact hheld
  | STIMER_H =>
    have harmed : t.timers.armed .STIMER_H = true := Timers.armed_iff.2 ⟨n, htimer⟩
    exact absurd (h.noH.symm.trans harmed) Bool.false_ne_true
  | STIMER_M =>
    have hdeadline := h.failsOver (Timers.armed_iff.2 ⟨n, htimer⟩)
    have hheld : (t.clearTimer .STIMER_M).Held c := by
      rw [← Bool.or_false c]
      exact h.clear htimer (.inl rfl)
    have hH := clearM_noH h
    have hstray := @tryNextIp_ok net new t (hok rfl)
    have htries := tryNextIp_tries net new t true
    unfold timerExpired
    generalize tryNextIp net new t true = m at htries hstray
    cases htries with
    | failed msg targets hm =>
      exact andThen_holds (.keep rfl (hheld.congr rfl hm fun _ _ => rfl)) rfl (by simp)
    | stray msg ts hm => exact absurd (hstray rfl) Bool.false_ne_true
    | cloned msg ts hm =>
      refine andThen_holds (.keep rfl ⟨.inl ?_, ?_, ?_⟩) rfl (clone_held hH)
      · simpa [deadline, retarget, armed_clear, slot]
          using hdeadline
      · simp [retarget, armed_clear, slot, h.noH]
      · simp [retarget, armed_clear, slot]
  | STIMER_D | STIMER_K | STIMER_J | STIMER_I | STIMER_L | STIMER_BL => exact .removed

end Timers

end Sems
