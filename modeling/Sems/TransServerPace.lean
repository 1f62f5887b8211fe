import Sems.TransPace
import Sems.TransServerRuns

/-!
# The retransmissions of a reply

A server transaction repeats its reply with timer G only while timer H is set
(`SipTrans.ServerPaced`). The expiry of timer H does not keep this while a reliable provisional
reply is repeated : it clears timer H only.
-/

namespace Sems

open TransTimer Timers

/-- The timers of a server transaction. What repeats the reply is new, or is `prev`. -/
structure SipTrans.ServerPaced (cfg : TimerConfig) (prev : Option TransTimer) (t : SipTrans) :
    Prop where
  retr : ∀ x ∈ t.getTimer .STIMER_G, x.type = .STIMER_J ∨
    (x.type = .STIMER_G ∧ cfg.IntervalOk x ∧ t.timers.armed .STIMER_H)
  deadline : ∀ x ∈ t.getTimer .STIMER_H, x.type = .STIMER_H
  counted : ∀ x ∈ t.getTimer .STIMER_G, x.n = 0 ∨ prev = some x

namespace SipTrans.ServerPaced

variable {cfg : TimerConfig} {prev : Option TransTimer} {t s : SipTrans}

theorem of_none (hretr : t.getTimer .STIMER_G = none) (hdeadline : t.getTimer .STIMER_H = none) :
    t.ServerPaced cfg prev := by
  refine ⟨?_, ?_, ?_⟩
  · rw [hretr]
    simp
  · rw [hdeadline]
    simp
  · rw [hretr]
    simp

variable (h : t.ServerPaced cfg prev)

include h

theorem keepsPace : t.KeepsPace cfg := by
  intro x hx htype
  rcases h.retr x hx with hJ | ⟨hG, hok, harmed⟩
  · rw [hJ] at htype
    simp at htype
  · refine ⟨hok.delay_eq, ?_⟩
    rw [hG]
    exact harmed

theorem congr (hs : s.timers = t.timers) : s.ServerPaced cfg prev := by
  have hget : ∀ type : TimerType, s.getTimer type = t.getTimer type := by
    intro type
    unfold getTimer
    rw [hs]
  refine ⟨?_, ?_, ?_⟩
  · rw [hget, hs]
    exact h.retr
  · rw [hget]
    exact h.deadline
  · rw [hget]
    exact h.counted

/-- Timer J is in the slot of timer G. -/
theorem resetJ : (t.resetTimer .STIMER_J).ServerPaced cfg prev := by
  have hretr : (t.resetTimer .STIMER_J).getTimer .STIMER_G = some ⟨.STIMER_J, 0⟩ := by
    show (t.timers.put ⟨.STIMER_J, 0⟩).get .STIMER_G = _
    rw [get_put]
    rfl
  have hdeadline : (t.resetTimer .STIMER_J).getTimer .STIMER_H = t.getTimer .STIMER_H := by
    show (t.timers.put ⟨.STIMER_J, 0⟩).get .STIMER_H = _
    rw [get_put]
    rfl
  refine ⟨?_, ?_, ?_⟩
  · rw [hretr]
    rintro x ⟨⟩
    exact .inl rfl
  · rw [hdeadline]
    exact h.deadline
  · rw [hretr]
    rintro x ⟨⟩
    exact .inl rfl

theorem repeatReply (hcfg : cfg.t1 .STIMER_G ≤ cfg.t2) : t.repeatReply.ServerPaced cfg prev := by
  have hretr : t.repeatReply.getTimer .STIMER_G =
      if !t.msg.localSocket.reliable then some ⟨.STIMER_G, 0⟩ else t.getTimer .STIMER_G := by
    unfold SipTrans.repeatReply getTimer
    rw [get_put, if_neg (by decide)]
    split_ifs
    · rw [get_put]
      rfl
    · rfl
  have hdeadline : t.repeatReply.getTimer .STIMER_H = some ⟨.STIMER_H, 0⟩ := by
    unfold SipTrans.repeatReply getTimer
    rw [get_put]
    rfl
  have hH := armed_iff.2 ⟨0, hdeadline⟩
  refine ⟨?_, ?_, ?_⟩
  · rw [hretr, hH]
    intro x hx
    split_ifs at hx
    · cases hx
      exact .inr ⟨rfl, hcfg, rfl⟩
    · exact (h.retr x hx).imp_right fun hG => ⟨hG.1, hG.2.1, rfl⟩
  · rw [hdeadline]
    rintro x ⟨⟩
    rfl
  · rw [hretr]
    intro x hx
    split_ifs at hx
    · cases hx
      exact .inl rfl
    · exact h.counted x hx

end SipTrans.ServerPaced

section Server

variable {cfg : TimerConfig} {prev : Option TransTimer} {t : SipTrans}

variable (hcfg : cfg.t1 .STIMER_G ≤ cfg.t2) (h : t.ServerPaced cfg prev)

include h

theorem updateUasRequest_paced {msg : TransMsg} :
    ∀ s ∈ (updateUasRequest t msg).1, s.ServerPaced cfg prev := by
  intro s hs
  unfold updateUasRequest at hs
  split at hs
  · cases hs
    exact h
  cases hstate : t.state
  all_goals rw [hstate] at hs
  case TS_PROCEEDING_REL =>
    dsimp only at hs
    split_ifs at hs
    · cases hs
      exact .of_none rfl rfl
    · cases hs
      exact h
  case TS_COMPLETED =>
    dsimp only at hs
    split_ifs at hs
    · cases hs
      exact h
    · cases hs
    · cases hs
      exact .of_none rfl rfl
  case TS_TERMINATED_200 =>
    dsimp only at hs
    split_ifs at hs
    · cases hs
      exact h
    · cases hs
  all_goals
    cases hs
    exact h

/-- Timer G expires. -/
theorem repeatG_paced {n : ℕ} (htimer : t.getTimer .STIMER_G = some ⟨.STIMER_G, n⟩)
    (hok : cfg.IntervalOk (next ⟨.STIMER_G, n⟩)) :
    (t.putTimer (next ⟨.STIMER_G, n⟩)).ServerPaced cfg
      (some (next ⟨.STIMER_G, n⟩)) := by
  have hget : (t.putTimer (next ⟨.STIMER_G, n⟩)).getTimer .STIMER_G =
      some (next ⟨.STIMER_G, n⟩) := by
    show (t.timers.put (next ⟨.STIMER_G, n⟩)).get .STIMER_G = _
    rw [get_put]
    rfl
  have hH : (t.putTimer (next ⟨.STIMER_G, n⟩)).timers.armed .STIMER_H = true := by
    show (t.timers.put (next ⟨.STIMER_G, n⟩)).armed .STIMER_H = true
    rw [armed_put]
    rcases h.retr _ htimer with hJ | ⟨-, -, harmed⟩
    · cases hJ
    · exact harmed
  have hdeadline : (t.putTimer (next ⟨.STIMER_G, n⟩)).getTimer .STIMER_H =
      t.getTimer .STIMER_H := by
    show (t.timers.put (next ⟨.STIMER_G, n⟩)).get .STIMER_H = _
    rw [get_put]
    rfl
  refine ⟨?_, ?_, ?_⟩
  · rw [hget]
    rintro x ⟨⟩
    exact .inr ⟨rfl, hok, hH⟩
  · rw [hdeadline]
    exact h.deadline
  · rw [hget]
    rintro x ⟨⟩
    exact .inr rfl

/-- Timer H expires. -/
theorem timerH_paced (hok : t.state = .TS_PROCEEDING_REL → t.timers.armed .STIMER_G = false) :
    ∀ s ∈ (timerH t).self, s.ServerPaced cfg prev := by
  intro s hs
  unfold timerH at hs
  dsimp only at hs
  split at hs
  · cases hstate : t.state
    all_goals rw [hstate] at hs
    case TS_PROCEEDING_REL =>
      cases hs
      have hget : (t.clearTimer .STIMER_H).getTimer .STIMER_G = t.getTimer .STIMER_G := by
        show (t.timers.clear .STIMER_H).get .STIMER_G = _
        rw [get_clear]
        rfl
      refine ⟨?_, ?_, ?_⟩
      · rw [hget]
        intro x hx
        refine .inl ((h.retr x hx).resolve_right fun hG => ?_)
        have hnotG := hok hstate
        unfold armed at hnotG
        rw [show t.timers.get .STIMER_G = some x from hx] at hnotG
        simp [hG.1] at hnotG
      · rw [show (t.clearTimer .STIMER_H).getTimer .STIMER_H = none from rfl]
        simp
      · rw [hget]
        exact h.counted
    all_goals cases hs
  · cases hs

theorem serverTimer_paced {timer : TransTimer} (htimer : t.getTimer timer.type = some timer)
    (hok : t.ExpiryOk cfg timer) :
    ∀ s ∈ (serverTimer t timer).self,
      s.ServerPaced cfg (if timer.type.slot = 0 then some timer.next else prev) := by
  intro s hs
  obtain ⟨type, n⟩ := timer
  cases type with
  | STIMER_G =>
    cases hs
    exact repeatG_paced h htimer (hok.1 (.inr rfl))
  | STIMER_H => exact timerH_paced h (hok.2 rfl) s hs
  | STIMER_A | STIMER_E =>
    -- these are no timers of a server transaction
    rcases h.retr _ htimer with hJ | ⟨hG, -⟩
    · cases hJ
    · cases hG
  | STIMER_I | STIMER_J => cases hs
  | _ =>
    cases hs
    exact h

/-- After its deadline a transaction has none. -/
theorem serverTimer_deadline {timer : TransTimer} (htimer : t.getTimer timer.type = some timer)
    (hslot : timer.type.slot = 1) :
    ∀ s ∈ (serverTimer t timer).self, s.getTimer .STIMER_F = none := by
  intro s hs
  have hget := (t.getTimer_of_slot .STIMER_H timer.type hslot.symm).trans htimer
  unfold serverTimer at hs
  rw [h.deadline timer hget] at hs
  unfold timerH at hs
  dsimp only at hs
  split at hs
  · cases hstate : t.state
    all_goals
      rw [hstate] at hs
      cases hs
    rfl
  · cases hs

include hcfg

theorem updateUasReply_paced {code : ℕ} : ∀ s ∈ updateUasReply t code, s.ServerPaced cfg prev := by
  intro s hs
  unfold updateUasReply at hs
  dsimp only at hs
  have hrepeat : ∀ {u : SipTrans}, u.timers = t.timers → u.repeatReply.ServerPaced cfg prev :=
    fun hu => (h.congr hu).repeatReply hcfg
  split_ifs at hs
  all_goals cases hs
  · exact hrepeat rfl
  · exact h.resetJ.congr rfl
  · exact hrepeat rfl
  · exact h.resetJ.congr rfl
  · exact hrepeat rfl
  · exact h.congr rfl

theorem sendReply_paced {env : ReplyEnv} {reply : ServerReply} :
    ∀ s ∈ (sendReply env t reply).1, s.ServerPaced cfg prev := by
  intro s hs
  unfold sendReply at hs
  dsimp only at hs
  split at hs
  · cases hs
    exact h
  split_ifs at hs
  · cases hs
    exact h.congr rfl
  · cases hs
    exact h.resetJ.congr rfl
  · cases hs
  · obtain ⟨u, hu, rfl⟩ := Option.map_eq_some_iff.1 hs
    have hpaced : u.ServerPaced cfg prev := by
      refine updateUasReply_paced hcfg ?_ u hu
      exact h.congr rfl
    exact hpaced.congr rfl

end Server

end Sems
