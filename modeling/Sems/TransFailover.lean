import Sems.TransLayer

/-!
# The failover

What `try_next_ip` can leave (`TriesNext`). Every transaction it leaves is the old one or a copy
of it, with the message and the targets changed. `resent` is what both become when the request
was sent.
-/

namespace Sems

open Timers

namespace SipTrans

variable {tr : SipTrans}

/-- With another message of the same request, and other targets. -/
def retarget (tr : SipTrans) (msg : TransMsg) (targets : Option (List SipTarget)) : SipTrans :=
  { tr with msg := msg, targets := targets }

/-- The request stays the one it is, and nothing else changes unless it is sent. -/
theorem resend_cases (net : Attempts) :
    ∀ (targets : List SipTarget) (tr : SipTrans),
      ∃ msg ts, msg.method = tr.msg.method ∧
        (tr.resend net targets = (tr.retarget msg (some ts), [], false) ∨
          tr.resend net targets =
            ((tr.retarget msg (some ts)).resent, [.request tr.addr msg], true))
  | [], tr => ⟨tr.msg, [], rfl, .inl rfl⟩
  | tgt :: ts, tr => by
    unfold resend
    by_cases hbl : (!tr.flags.disableBl && (net ts.length).blacklisted) = true
    · rw [if_pos hbl]
      exact resend_cases net ts tr
    rw [if_neg hbl]
    cases (net ts.length).socket with
    | none => exact ⟨{ tr.msg with remoteIp := tgt.ss }, ts, rfl, .inl rfl⟩
    | some sock =>
      dsimp only
      split
      · exact ⟨{ tr.msg with remoteIp := tgt.ss, localSocket := sock }, ts, rfl, .inl rfl⟩
      -- the message that is sent, whichever way it is made
      obtain ⟨msg, hmsg, hm⟩ : ∃ msg : TransMsg,
          (if (tr.flags.nextHopRuri || sock != tr.msg.localSocket) = true then
            TransMsg.generate { tr.msg with remoteIp := tgt.ss } tr.flags (net ts.length) sock tgt
          else { tr.msg with remoteIp := tgt.ss, branch := (net ts.length).branch }) = msg ∧
            msg.method = tr.msg.method := by
        refine ⟨_, rfl, ?_⟩
        split_ifs
        · rfl
        · rfl
      rw [hmsg]
      split
      · exact ⟨msg, ts, hm, .inr rfl⟩
      · obtain ⟨msg', ts', hm', hr⟩ := resend_cases net ts (tr.retarget msg (some ts))
        exact ⟨msg', ts', hm'.trans hm, hr⟩

section Clone

variable (addr : ℕ) (msg : TransMsg) (ts : List SipTarget)

/-- A copy has the timer B or F of the transaction, and no other. -/
theorem clone_eq :
    tr.clone addr msg ts =
      { SipTrans.new addr tr.flags tr.type msg with
        timers := ((tr.getTimer .STIMER_B).map empty.put).getD .empty
        dialogId := tr.dialogId
        targets := some ts
        request := tr.request } := by
  unfold clone
  cases tr.getTimer .STIMER_B with
  | none | some timer => rfl

theorem clone_retarget (msg' : TransMsg) (ts' : List SipTarget) :
    (tr.clone addr msg ts).retarget msg' (some ts') = tr.clone addr msg' ts' := by
  rw [clone_eq, clone_eq]
  rfl

theorem clone_msg : (tr.clone addr msg ts).msg = msg := by
  rw [clone_eq]
  rfl

theorem clone_addr : (tr.clone addr msg ts).addr = addr := by
  rw [clone_eq]
  rfl

theorem clone_getTimer {type : TimerType} :
    (tr.clone addr msg ts).getTimer type = if type.slot = 1 then tr.getTimer type else none := by
  have hB : type.slot = 1 → tr.getTimer type = tr.getTimer .STIMER_B :=
    tr.getTimer_of_slot type .STIMER_B
  rw [clone_eq]
  cases h : tr.getTimer .STIMER_B with
  | none =>
    split_ifs with hs
    · rw [hB hs, h]
      rfl
    · rfl
  | some timer =>
    show (empty.put timer).get type = _
    rw [get_put, slot_of_get h]
    show (if type.slot = 1 then some timer else none) = _
    split_ifs with hs
    · rw [hB hs, h]
    · rfl

end Clone

/-- The deadline stays, or is set. -/
theorem awaitTimers_deadline {retr ddl : TimerType} (hretr : retr.slot = 0) (hddl : ddl.slot = 1) :
    (tr.awaitTimers retr ddl).get .STIMER_F = some ((tr.getTimer .STIMER_F).getD ⟨ddl, 0⟩) := by
  have hF : TimerType.STIMER_F.slot = 1 := rfl
  have hM : TimerType.STIMER_M.slot = 2 := rfl
  have hget : ∀ ts : Timers, ts.get ddl = ts.get .STIMER_F := by
    intro ts
    unfold Timers.get
    rw [hddl, hF]
  have hput : (if (!tr.msg.localSocket.reliable) = true then tr.timers.put ⟨retr, 0⟩
      else tr.timers).get .STIMER_F = tr.timers.get .STIMER_F := by
    split_ifs
    · rw [get_put, hretr, hF]
      rfl
    · rfl
  unfold awaitTimers getTimer
  dsimp only
  rw [hget, hput]
  cases ht : tr.timers.get .STIMER_F with
  | none =>
    simp only [Option.isNone_none, if_true, Option.getD_none]
    split_ifs
    all_goals simp [get_put, hddl, hF, hM]
  | some timer =>
    simp only [Option.isNone_some, Bool.false_eq_true, if_false, Option.getD_some]
    split_ifs
    all_goals simp [get_put, hretr, hF, hM, ht]

theorem resent_live : tr.resent.live = true := by
  unfold resent live
  dsimp only
  split_ifs
  · rfl
  · rfl

end SipTrans

open SipTrans in
/-- What `try_next_ip` can leave, without and with a new transaction, once timer M is cleared. -/
inductive TriesNext (addr : ℕ) (tr : SipTrans) : Bool → NextIp → Prop
  /-- There is no target. -/
  | failed {useNewTrans : Bool} (msg : TransMsg) (targets : Option (List SipTarget))
      (hm : msg.method = tr.msg.method) :
      TriesNext addr tr useNewTrans ⟨tr.retarget msg targets, none, [], false⟩
  /-- The transaction has sent its request to another target. -/
  | sent (msg : TransMsg) (ts : List SipTarget) (hm : msg.method = tr.msg.method) :
      TriesNext addr tr false
        ⟨(tr.retarget msg (some ts)).resent, none, [.request tr.addr msg], true⟩
  /-- A new transaction has sent it. -/
  | cloned (msg : TransMsg) (ts : List SipTarget) (hm : msg.method = tr.msg.method) :
      TriesNext addr tr true
        ⟨tr.retarget tr.msg none, some (tr.clone addr msg ts).resent, [.request addr msg], true⟩
  /-- There is a new transaction, and there is no target for it. -/
  | stray (msg : TransMsg) (ts : List SipTarget) (hm : msg.method = tr.msg.method) :
      TriesNext addr tr true ⟨tr.retarget tr.msg none, some (tr.clone addr msg ts), [], false⟩

variable (net : Attempts) (addr : ℕ)

open SipTrans in
theorem cloneNext_tries {tr : SipTrans} {targets : List SipTarget} :
    TriesNext addr tr true (cloneNext net addr tr targets) := by
  unfold cloneNext
  cases getNext net tr.flags targets with
  | none => exact .failed tr.msg (some []) rfl
  | some next =>
    obtain ⟨tgt, ts⟩ := next
    dsimp only
    cases (net ts.length).socket with
    | none => exact .failed tr.msg (some ts) rfl
    | some sock =>
      dsimp only
      split
      · exact .failed tr.msg (some ts) rfl
      by_cases hsent : (net ts.length).sent = true
      · rw [if_pos hsent, clone_msg]
        exact .cloned _ ts rfl
      · rw [if_neg hsent]
        obtain ⟨msg, ts', hm, hr⟩ := resend_cases net ts
          (tr.clone addr (tr.msg.generate tr.flags (net ts.length) sock tgt) ts)
        rw [clone_retarget, clone_addr] at hr
        rw [clone_msg] at hm
        rcases hr with hr | hr
        · rw [hr]
          exact .stray msg ts' hm
        · rw [hr]
          exact .cloned msg ts' hm

open SipTrans in
theorem tryNextIp_tries (tr : SipTrans) (useNewTrans : Bool) :
    TriesNext addr (tr.clearTimer .STIMER_M) useNewTrans (tryNextIp net addr tr useNewTrans) := by
  unfold tryNextIp
  generalize tr.clearTimer .STIMER_M = tr
  dsimp only
  cases htargets : tr.targets with
  | none =>
    have h : tr = tr.retarget tr.msg none := by
      rw [← htargets]
      rfl
    nth_rewrite 2 [h]
    exact .failed tr.msg none rfl
  | some targets =>
    cases useNewTrans with
    | true => exact cloneNext_tries net addr
    | false =>
      dsimp only
      rw [if_neg Bool.false_ne_true]
      obtain ⟨msg, ts, hm, hr | hr⟩ := resend_cases net targets tr
      · rw [hr]
        exact .failed msg (some ts) hm
      · rw [hr]
        exact .sent msg ts hm

open SipTrans

/-- Without targets there is no failover. -/
theorem tryNextIp_noTargets {tr : SipTrans} (useNewTrans : Bool) (h : tr.targets.getD [] = []) :
    (tryNextIp net addr tr useNewTrans).ok = false := by
  unfold tryNextIp
  simp only [clearTimer]
  cases htargets : tr.targets with
  | none => rfl
  | some targets =>
    rw [htargets] at h
    obtain rfl : targets = [] := h
    cases useNewTrans with
    | true | false => rfl

/-! ## Replies -/

variable (s : SipTrans) (reply : TransReply)

/-- The new transaction is not made after the failover. -/
theorem inviteError_added (forgetReply : Bool) :
    (inviteError s reply forgetReply).1.added = [] := by
  unfold inviteError
  split
  case h_3 | h_4 =>
    split_ifs
    · rfl
    · rfl
  all_goals rfl

theorem nonInviteFinal_added : (nonInviteFinal s reply).1.added = [] := by
  unfold nonInviteFinal
  split
  case h_1 | h_2 | h_3 =>
    dsimp only
    cases reply.localSocket with
    | none => rfl
    | some sock =>
      dsimp only
      split_ifs
      · rfl
      · rfl
  case h_5 | h_6 =>
    split_ifs
    all_goals rfl
  all_goals rfl

/-! ## New requests -/

variable (addr : ℕ) (junk : TransFlags) (msg : TransMsg)

/-- Sending a request sets the timers of a new transaction. -/
theorem updateUacRequest_eq :
    updateUacRequest addr junk msg =
      { newTrans addr junk msg .TT_UAC with
        timers := (updateUacRequest addr junk msg).timers } := by
  unfold updateUacRequest
  simp only [resetTimer, putTimer]
  split_ifs
  all_goals rfl

theorem updateUacRequest_addr : (updateUacRequest addr junk msg).addr = addr := by
  rw [updateUacRequest_eq]
  rfl

theorem updateUacRequest_live : (updateUacRequest addr junk msg).live = true := by
  rw [updateUacRequest_eq]
  unfold newTrans live
  dsimp only [setState]
  split_ifs
  all_goals rfl

/-- Timer B or F ends the wait for the answer. -/
theorem timerExpired_ends (t : SipTrans) (timer : TransTimer)
    (h : timer.type = .STIMER_B ∨ timer.type = .STIMER_F) :
    (t.live ∧ timerExpired net addr t timer = timeout (t.clearTimer timer.type)) ∨
      (t.state = .TS_ABANDONED ∧
        timerExpired net addr t timer = abandonedTimeout (t.clearTimer timer.type)) ∨
      timerExpired net addr t timer = .removed := by
  unfold timerExpired live
  rcases h with h | h
  all_goals
    rw [h]
    dsimp only [clearTimer]
    cases t.state
    all_goals simp

end Sems
