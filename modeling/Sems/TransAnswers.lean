import Sems.TransFailover

/-!
# Answers

A transaction that is not answered yet (`SipTrans.live`) owes a final reply to the request it
comes from. The weight of an effect for the request `r` is the number of final replies for it
that are handed to the UA, and of the transactions that owe one. `Effect.Answers` says that it does
not add to the weights, leaves the transactions that are answered as such, and that only one that is
not sends its request to a target.

Every function does so, but `update_uac_reply` only with a condition (`updateUacReply_answers`) :
with a 503 reply to a request other than INVITE, the failover comes before the state is looked at.
-/

namespace Sems

open List Timers TimerType

variable (r : ℕ) (t : SipTrans)

/-- The transaction owes the final reply to the request `r`. -/
def SipTrans.owes : Bool :=
  t.live && t.request == some r

/-- A final reply to the request `r`. -/
def TransLog.final : TransLog → Bool
  | .reply req _ code => req == some r && decide (200 ≤ code)
  | _ => false

/-- No final reply, and no request but of a transaction that is not answered, or of the new
one. -/
def TransLog.Quiet (new : ℕ) : TransLog → Prop
  | .reply _ _ code => code < 200
  | .request a _ => (a = t.addr ∧ t.live) ∨ a = new
  | _ => True

/-- Timer M is only set while the request is not answered. -/
def SipTrans.FailsOverLive : Prop :=
  t.timers.armed .STIMER_M → t.live

/-! ## What a function does to one transaction -/

open SipTrans

open TransLog

def Effect.weight (e : Effect) : ℕ :=
  (e.self.toList ++ e.added).countP (owes r) + e.log.countP (final r)

/-- What the functions do to the transaction `t`, with `new` the address of a new one. -/
structure Effect.Answers (new : ℕ) (e : Effect) : Prop where
  weight : ∀ r, e.weight r ≤ if t.owes r then 1 else 0
  self : ∀ s ∈ e.self, s.addr = t.addr ∧ (s.live → t.live) ∧ s.FailsOverLive
  added : e.added = [] ∨ ∃ n, e.added = [n] ∧ n.addr = new ∧ n.FailsOverLive
  sends : ∀ a msg, request a msg ∈ e.log → (a = t.addr ∧ t.live) ∨ a = new

/-- At most one new transaction, which owes nothing. -/
def Idle (new : ℕ) (added : List SipTrans) : Prop :=
  added = [] ∨ ∃ n, added = [n] ∧ n.addr = new ∧ (∀ r, n.owes r = false) ∧ n.FailsOverLive

/-- The transaction is answered. -/
structure SipTrans.Over (t s : SipTrans) : Prop where
  addr : s.addr = t.addr
  request : s.request = t.request
  live : s.live = false
  armed : s.timers.armed .STIMER_M = false

/-- The transaction goes on as it was, or is answered. -/
structure SipTrans.Goes (t s : SipTrans) : Prop where
  addr : s.addr = t.addr
  request : s.request = t.request
  live : s.live → t.live
  failsOver : s.FailsOverLive

namespace SipTrans

variable {t s u : SipTrans}

theorem owes_of_not_live (h : s.live = false) (r : ℕ) : s.owes r = false := by
  rw [owes, h, Bool.false_and]

theorem failsOverLive_of_not_armed (h : s.timers.armed .STIMER_M = false) : s.FailsOverLive := by
  intro hM
  rw [h] at hM
  exact absurd hM Bool.false_ne_true

theorem Over.goes (h : t.Over s) : t.Goes s where
  addr := h.addr
  request := h.request
  live hs := absurd (h.live.symm.trans hs) Bool.false_ne_true
  failsOver := failsOverLive_of_not_armed h.armed

theorem Goes.trans (h : t.Goes s) (h' : s.Goes u) : t.Goes u where
  addr := h'.addr.trans h.addr
  request := h'.request.trans h.request
  live hu := h.live (h'.live hu)
  failsOver := h'.failsOver

theorem Goes.over (h : t.Goes s) (h' : s.Over u) : t.Over u where
  addr := h'.addr.trans h.addr
  request := h'.request.trans h.request
  live := h'.live
  armed := h'.armed

/-- The same state, and no new timer M. -/
theorem Goes.of_state (hM : t.FailsOverLive) (haddr : s.addr = t.addr)
    (hreq : s.request = t.request) (hstate : s.state = t.state)
    (harmed : s.timers.armed .STIMER_M → t.timers.armed .STIMER_M) : t.Goes s := by
  have hlive : s.live = t.live := by
    unfold SipTrans.live
    rw [hstate]
  refine ⟨haddr, hreq, fun h => hlive ▸ h, fun h => ?_⟩
  rw [hlive]
  exact hM (harmed h)

theorem Goes.refl (hM : t.FailsOverLive) : t.Goes t :=
  .of_state hM rfl rfl rfl id

/-- A transaction that is not answered stays so. -/
theorem Goes.of_live (haddr : s.addr = t.addr) (hreq : s.request = t.request) (ht : t.live)
    (hs : s.live) : t.Goes s :=
  ⟨haddr, hreq, fun _ => ht, fun _ => hs⟩

theorem live_of_state (h : t.state = .TS_CALLING ∨ t.state = .TS_PROCEEDING) : t.live := by
  unfold live
  rcases h with h | h
  · rw [h]
    rfl
  · rw [h]
    rfl

end SipTrans

namespace Effect.Answers

variable {t n : SipTrans} {new : ℕ} {self : Option SipTrans} {added : List SipTrans}
  {log : List TransLog} {calls : List Call}

theorem countP_quiet (hlog : ∀ l ∈ log, l.Quiet t new) (r : ℕ) : log.countP (final r) = 0 := by
  rw [countP_eq_zero]
  intro l hl
  have hq := hlog l hl
  cases l with
  | reply req dialogId code =>
    unfold final
    rw [Bool.and_eq_true, decide_eq_true_eq]
    exact fun h => absurd hq (Nat.not_lt.2 h.2)
  | _ => exact Bool.false_ne_true

theorem countP_idle (h : Idle new added) (r : ℕ) : added.countP (owes r) = 0 := by
  rcases h with rfl | ⟨n, rfl, -, hn, -⟩
  · rfl
  · rw [countP_singleton, hn]
    rfl

theorem added_of_idle (h : Idle new added) :
    added = [] ∨ ∃ n, added = [n] ∧ n.addr = new ∧ n.FailsOverLive := by
  rcases h with rfl | ⟨n, rfl, ha, -, hM⟩
  · exact .inl rfl
  · exact .inr ⟨n, rfl, ha, hM⟩

theorem countP_over (hself : ∀ s ∈ self, t.Over s) (r : ℕ) : self.toList.countP (owes r) = 0 := by
  rw [countP_eq_zero]
  intro s hs
  rw [owes_of_not_live (hself s (Option.mem_toList.1 hs)).live]
  exact Bool.false_ne_true

/-- The transaction goes on, or is removed. -/
theorem keep (hself : ∀ s ∈ self, t.Goes s) (hadded : Idle new added)
    (hlog : ∀ l ∈ log, l.Quiet t new) : Answers t new ⟨self, added, log, calls⟩ where
  weight r := by
    unfold Effect.weight
    rw [countP_append, countP_idle hadded, countP_quiet hlog]
    cases self with
    | none => exact Nat.zero_le _
    | some s =>
      have hs := hself s rfl
      have howes : s.owes r → t.owes r := by
        unfold owes
        rw [Bool.and_eq_true, Bool.and_eq_true, hs.request]
        exact fun h => ⟨hs.live h.1, h.2⟩
      show [s].countP (owes r) + 0 + 0 ≤ _
      rw [countP_singleton]
      split_ifs with h h'
      · exact Nat.le_refl 1
      · exact absurd (howes h) h'
      all_goals exact Nat.zero_le _
  self s hs := ⟨(hself s hs).addr, (hself s hs).live, (hself s hs).failsOver⟩
  added := added_of_idle hadded
  sends a msg h := hlog _ h

/-- The transaction goes on. -/
theorem stay {s : SipTrans} (hs : t.Goes s) (hlog : ∀ l ∈ log, l.Quiet t new) :
    Answers t new ⟨some s, [], log, calls⟩ :=
  .keep (by rintro s ⟨⟩; exact hs) (.inl rfl) hlog

/-- The transaction is removed. -/
theorem gone (hlog : ∀ l ∈ log, l.Quiet t new) : Answers t new ⟨none, [], log, calls⟩ :=
  .keep (by rintro s ⟨⟩) (.inl rfl) hlog

/-- The request is answered. -/
theorem answer {L : List TransLog} {dialogId : Str} {code : ℕ} (hlive : t.live)
    (hself : ∀ s ∈ self, t.Over s) (hadded : Idle new added) (hlog : ∀ l ∈ L, l.Quiet t new) :
    Answers t new ⟨self, added, L ++ [.reply t.request dialogId code], calls⟩ where
  weight r := by
    unfold Effect.weight
    rw [countP_append, countP_over hself, countP_idle hadded, countP_append,
      countP_quiet hlog, countP_singleton]
    unfold owes final
    rw [hlive, Bool.true_and]
    simp only [Bool.and_eq_true]
    split_ifs with h h'
    · exact Nat.le_refl 1
    · exact absurd h.1 h'
    all_goals exact Nat.zero_le _
  self s hs := ⟨(hself s hs).addr, fun _ => hlive, failsOverLive_of_not_armed (hself s hs).armed⟩
  added := added_of_idle hadded
  sends a msg h := by
    rcases mem_append.1 h with h | h
    · exact hlog _ h
    · exact absurd (mem_singleton.1 h) TransLog.noConfusion

/-- A new transaction takes the request over. -/
theorem handOver (hlive : t.live) (hself : ∀ s ∈ self, t.Over s) (haddr : n.addr = new)
    (hreq : n.request = t.request) (hn : n.live) (hlog : ∀ l ∈ log, l.Quiet t new) :
    Answers t new ⟨self, [n], log, calls⟩ where
  weight r := by
    have howes : n.owes r = t.owes r := by
      unfold owes
      rw [hreq, hn, hlive]
    unfold Effect.weight
    rw [countP_append, countP_over hself, countP_singleton, countP_quiet hlog, howes]
    exact Nat.le_of_eq (by rw [Nat.zero_add, Nat.add_zero])
  self s hs := ⟨(hself s hs).addr, fun _ => hlive, failsOverLive_of_not_armed (hself s hs).armed⟩
  added := .inr ⟨n, rfl, haddr, fun _ => hn⟩
  sends a msg h := hlog _ h

end Effect.Answers

/-! ## Replies -/

section Replies

variable {t s : SipTrans} {new : ℕ} {net : Attempts} {reply : TransReply}

theorem timeout_answers (hlive : t.live) : (timeout t).Answers t new := by
  unfold timeout
  dsimp only
  split_ifs with hbl
  · refine .answer (L := []) hlive ?_ (.inl rfl) (by simp)
    rintro s ⟨⟩
  · refine .answer (L := []) hlive ?_ (.inl rfl) (by simp)
    rintro s ⟨⟩
    exact ⟨rfl, rfl, rfl, by simp [armed_put, slot]⟩

theorem SipTrans.over_complete (t : SipTrans) : t.Over t.complete where
  addr := rfl
  request := rfl
  live := rfl
  armed := by simp [complete, armed_put, slot]

/-- An error reply answers an INVITE that is not answered, unless it is forgotten, and changes
nothing for another. -/
theorem inviteError_cases (t : SipTrans) (reply : TransReply) (forgetReply : Bool) :
    ((t.state = .TS_CALLING ∨ t.state = .TS_PROCEEDING) ∧
      ∃ s, t.Over s ∧
        inviteError t reply forgetReply = (⟨some s, [], [.ack t.addr], []⟩, !forgetReply)) ∨
    (¬ (t.state = .TS_CALLING ∨ t.state = .TS_PROCEEDING) ∧
      ∃ self log, (∀ s ∈ self, t.FailsOverLive → t.Goes s) ∧ (∀ l ∈ log, l = .ack t.addr) ∧
        inviteError t reply forgetReply = (⟨self, [], log, []⟩, false)) := by
  unfold inviteError
  cases h : t.state with
  | TS_CALLING =>
    refine .inl ⟨.inl rfl, t.resetAllTimers.complete, ?_, rfl⟩
    have hover := t.resetAllTimers.over_complete
    exact { hover with }
  | TS_PROCEEDING => exact .inl ⟨.inr rfl, t.complete, t.over_complete, rfl⟩
  | TS_ABANDONED | TS_TERMINATED =>
    refine .inr ⟨by simp, ?_⟩
    split_ifs
    · exact ⟨none, [], by simp, by simp, rfl⟩
    · refine ⟨_, [.ack t.addr], ?_, by simp, rfl⟩
      rintro s ⟨⟩ hM
      exact .of_state hM rfl rfl rfl id
  | TS_COMPLETED =>
    refine .inr ⟨by simp, _, [.ack t.addr], ?_, by simp, rfl⟩
    rintro s ⟨⟩ hM
    exact .refl hM
  | _ =>
    refine .inr ⟨by simp, _, [], ?_, by simp, rfl⟩
    rintro s ⟨⟩ hM
    exact .refl hM

/-- The transaction of a failover that has changed nothing else. -/
theorem goes_retarget (t : SipTrans) (msg : TransMsg) (targets : Option (List SipTarget)) :
    t.Goes ((t.clearTimer .STIMER_M).retarget msg targets) := by
  refine ⟨rfl, rfl, id, failsOverLive_of_not_armed ?_⟩
  simp [retarget, armed_clear, slot]

section Clone

variable (msg : TransMsg) (ts : List SipTarget)

theorem clone_not_live : (t.clone new msg ts).live = false := by
  rw [clone_eq]
  rfl

theorem clone_not_armed : (t.clone new msg ts).timers.armed .STIMER_M = false :=
  congrArg (Option.any _) (clone_getTimer new msg ts)

/-- The new transaction of a failover without a target owes nothing. -/
theorem idle_clone : Idle new [t.clone new msg ts] :=
  .inr ⟨_, rfl, clone_addr .., owes_of_not_live (clone_not_live msg ts),
    failsOverLive_of_not_armed (clone_not_armed msg ts)⟩

end Clone

theorem andThen_mk (s : SipTrans) (clone : Option SipTrans) (log log' : List TransLog) (ok : Bool)
    (self : Option SipTrans) (added : List SipTrans) (calls : List Call) :
    NextIp.andThen ⟨s, clone, log, ok⟩ ⟨self, added, log', calls⟩ =
      ⟨self, clone.toList ++ added, log ++ log', calls⟩ :=
  rfl

theorem passReply_false (e : Effect) : passReply t reply (e, false) = e := by
  simp [passReply]

/-- The request has gone to the next target, and the reply goes nowhere. -/
theorem resent_answers (hlive : t.live) {msg : TransMsg} {ts : List SipTarget} :
    (NextIp.andThen
      ⟨((t.clearTimer .STIMER_M).retarget msg (some ts)).resent, none, [.request t.addr msg], true⟩
      (.keep ((t.clearTimer .STIMER_M).retarget msg (some ts)).resent)).Answers t new := by
  refine .stay (.of_live rfl rfl hlive resent_live) ?_
  intro l hl
  obtain rfl := mem_singleton.1 hl
  exact .inl ⟨rfl, hlive⟩

/-- The end of an error reply to an INVITE : `s` is the transaction after a failover without a
target. -/
theorem inviteError_answers {c : Option SipTrans} (hs : t.Goes s)
    (hstate : s.state = t.state) (hclone : Idle new c.toList) :
    (passReply t reply
      (NextIp.andThen ⟨s, c, [], false⟩ (inviteError s reply false).1,
        (inviteError s reply false).2)).Answers t new := by
  rcases inviteError_cases s reply false with
    ⟨hlive, u, hu, h⟩ | ⟨-, self, log, hself, hlog, h⟩
  · rw [h, andThen_mk, Bool.not_false, passReply, append_nil]
    rw [hstate] at hlive
    refine .answer (live_of_state hlive) ?_ hclone ?_
    · rintro u' ⟨⟩
      exact hs.over hu
    · intro l hl
      obtain rfl := mem_singleton.1 hl
      trivial
  · rw [h, andThen_mk, passReply_false, append_nil]
    refine .keep ?_ hclone ?_
    · intro u hu
      exact hs.trans (hself u hu hs.failsOver)
    · intro l hl
      rw [hlog l hl]
      trivial

/-- A final reply answers a request that is not answered, and changes nothing for another. -/
theorem nonInviteFinal_cases (t : SipTrans) (reply : TransReply) :
    (t.live ∧ ∃ self pass, (∀ s ∈ self, t.Over s) ∧
      nonInviteFinal t reply = (⟨self, [], [], []⟩, pass)) ∨
    ∃ self, (∀ s ∈ self, t.FailsOverLive → t.Goes s) ∧
      nonInviteFinal t reply = (⟨self, [], [], []⟩, false) := by
  unfold nonInviteFinal
  cases h : t.state with
  | TS_TRYING | TS_CALLING | TS_PROCEEDING =>
    refine .inl ⟨by simp [live, h], ?_⟩
    cases reply.localSocket with
    | none => exact ⟨none, _, by simp, rfl⟩
    | some sock =>
      dsimp only
      split_ifs
      · refine ⟨_, _, ?_, rfl⟩
        rintro s ⟨⟩
        exact ⟨rfl, rfl, rfl, by simp [armed_put, slot]⟩
      · exact ⟨none, _, by simp, rfl⟩
  | TS_ABANDONED | TS_TERMINATED =>
    refine .inr ?_
    split_ifs
    · exact ⟨none, by simp, rfl⟩
    all_goals
      refine ⟨_, ?_, rfl⟩
      rintro s ⟨⟩ hM
      exact .of_state hM rfl rfl rfl id
  | _ =>
    refine .inr ⟨_, ?_, rfl⟩
    rintro s ⟨⟩ hM
    exact .refl hM

/-- The end of a final reply : `s` is the transaction after a failover without a target. -/
theorem nonInviteFinal_answers (hs : t.Goes s) :
    (passReply t reply
      (NextIp.andThen ⟨s, none, [], false⟩ (nonInviteFinal s reply).1,
        (nonInviteFinal s reply).2)).Answers t new := by
  rcases nonInviteFinal_cases s reply with ⟨hlive, self, pass, hself, h⟩ | ⟨self, hself, h⟩
  · rw [h, andThen_mk]
    cases pass with
    | true => exact .answer (hs.live hlive) (fun u hu => hs.over (hself u hu)) (.inl rfl) (by simp)
    | false => exact .keep (fun u hu => (hs.over (hself u hu)).goes) (.inl rfl) (by simp)
  · rw [h, andThen_mk, passReply_false]
    exact .keep (fun u hu => hs.trans (hself u hu hs.failsOver)) (.inl rfl) (by simp)

variable (hM : t.FailsOverLive)
include hM

/-- A provisional reply leaves the request unanswered. -/
theorem provisionalReply_goes :
    ∃ s calls pass, provisionalReply t = (⟨some s, [], [], calls⟩, pass) ∧ t.Goes s := by
  have hpass : ∀ s : SipTrans, s.addr = t.addr → s.request = t.request →
      s.state = .TS_PROCEEDING → t.live →
        ∃ s' calls pass, passProvisional s = (⟨some s', [], [], calls⟩, pass) ∧ t.Goes s' := by
    intro s haddr hreq hstate ht
    unfold passProvisional
    split_ifs with hcancel hinvite
    all_goals exact ⟨_, _, _, rfl, .of_live haddr hreq ht (live_of_state (.inr hstate))⟩
  unfold provisionalReply
  split
  case h_1 h => exact hpass _ rfl rfl rfl (live_of_state (.inl h))
  case h_2 h => exact hpass _ rfl rfl rfl (by unfold live; rw [h]; rfl)
  case h_3 h => exact hpass _ rfl rfl h (live_of_state (.inr h))
  all_goals exact ⟨_, _, _, rfl, .of_state hM rfl rfl rfl id⟩

theorem provisionalReply_answers (hcode : reply.code < 200) :
    (passReply t reply (provisionalReply t)).Answers t new := by
  obtain ⟨s, calls, pass, h, hs⟩ := provisionalReply_goes hM
  rw [h]
  refine .stay hs ?_
  intro l hl
  cases pass with
  | false => exact absurd hl not_mem_nil
  | true =>
    obtain rfl := mem_singleton.1 hl
    exact hcode

theorem inviteErrorReply_answers :
    (passReply t reply (inviteErrorReply net new t reply)).Answers t new := by
  unfold inviteErrorReply
  by_cases hcond : reply.code = 503 ∧ (t.state = .TS_CALLING ∨ t.state = .TS_PROCEEDING)
  · have hlive : t.live := live_of_state hcond.2
    rw [if_pos hcond]
    split
    · have htries := tryNextIp_tries net new t true
      generalize tryNextIp net new t true = n at htries
      cases htries with
      | failed msg targets hm =>
        exact inviteError_answers (goes_retarget t msg targets) rfl (.inl rfl)
      | stray msg ts hm =>
        exact inviteError_answers (goes_retarget t _ none) rfl (idle_clone msg ts)
      | cloned msg ts hm =>
        have hgoes := goes_retarget t t.msg none
        rcases inviteError_cases ((t.clearTimer .STIMER_M).retarget t.msg none) reply true with
          ⟨-, u, hu, h⟩ | ⟨hstate, -⟩
        · dsimp only
          rw [show (t.clearTimer .STIMER_M).msg = t.msg from rfl, h, andThen_mk, Bool.not_true,
            passReply_false]
          refine .handOver hlive ?_ (clone_addr ..) ?_ resent_live ?_
          · rintro u' ⟨⟩
            exact hgoes.over hu
          · rw [clone_eq]
            rfl
          · simp [Quiet]
        · exact absurd hcond.2 hstate
    · have htries := tryNextIp_tries net new t false
      generalize tryNextIp net new t false = n at htries
      cases htries with
      | failed msg targets hm =>
        exact inviteError_answers (goes_retarget t msg targets) rfl (.inl rfl)
      | sent msg ts hm => exact resent_answers hlive
  · rw [if_neg hcond]
    exact inviteError_answers (c := none) (.refl hM) rfl (.inl rfl)

theorem invitePositive_answers : (passReply t reply (invitePositive t reply)).Answers t new := by
  unfold invitePositive
  cases h : t.state with
  | TS_CALLING | TS_PROCEEDING =>
    refine .answer (L := []) (live_of_state (by simp [h])) ?_ (.inl rfl) (by simp)
    rintro s ⟨⟩
    exact ⟨rfl, rfl, rfl, by simp [armed_put, slot]⟩
  | TS_TERMINATED_200 =>
    split_ifs
    all_goals exact .stay (.refl hM) (by simp [Quiet])
  | _ => exact .stay (.of_state hM rfl rfl rfl id) (by simp)

/-- The failover for a request that is answered is the one thing that can go wrong. -/
theorem nonInviteFinalReply_answers (hok : reply.code = 503 → t.live ∨ t.targets.getD [] = []) :
    (passReply t reply (nonInviteFinalReply net new t reply)).Answers t new := by
  unfold nonInviteFinalReply
  split_ifs with hcode
  · have htries := tryNextIp_tries net new t false
    have hnone := @tryNextIp_noTargets net new t false
    generalize tryNextIp net new t false = n at htries hnone
    cases htries with
    | failed msg targets hm => exact nonInviteFinal_answers (goes_retarget t msg targets)
    | sent msg ts hm =>
      have hlive : t.live := (hok hcode).resolve_right fun h => absurd (hnone h) (by simp)
      exact resent_answers hlive
  · exact nonInviteFinal_answers (.refl hM)

theorem updateUacReply_answers
    (hok : t.msg.method ≠ .INVITE → reply.code = 503 → t.live ∨ t.targets.getD [] = []) :
    (passReply t reply (updateUacReply net new t reply)).Answers t new := by
  unfold updateUacReply
  split_ifs with hcode hinvite h300
  · exact provisionalReply_answers hM hcode
  · exact inviteErrorReply_answers hM
  · exact invitePositive_answers hM
  · exact nonInviteFinalReply_answers hM (hok hinvite)

end Replies

/-! ## CANCEL and the timers -/

section Timers

variable {t : SipTrans} {new : ℕ} {net : Attempts}

theorem Effect.Answers.of_clearTimer {type : TimerType} {e : Effect}
    (h : e.Answers (t.clearTimer type) new) : e.Answers t new :=
  { h with }

theorem timerM_answers (hlive : t.live) :
    (timerExpired net new t ⟨.STIMER_M, n⟩).Answers t new := by
  unfold timerExpired
  have htries := tryNextIp_tries net new t true
  generalize tryNextIp net new t true = n at htries
  cases htries with
  | failed msg targets hm => exact .stay (goes_retarget t msg targets) (by simp)
  | stray msg ts hm =>
    refine .keep ?_ (idle_clone msg ts) (by simp)
    rintro s ⟨⟩
    exact goes_retarget t _ none
  | cloned msg ts hm =>
    refine .handOver hlive ?_ (clone_addr ..) ?_ resent_live ?_
    · rintro s ⟨⟩
      exact ⟨rfl, rfl, rfl, by simp [retarget, armed_clear, slot]⟩
    · rw [clone_eq]
      rfl
    · simp [Quiet]

variable (hM : t.FailsOverLive)
include hM

theorem cancelTrans_answers (env : CancelEnv) : (cancelTrans env new t).Answers t new := by
  rcases cancelTrans_cases env new t with heq | ⟨h, heq⟩ | heq <;> rw [heq]
  · exact .stay (.refl hM) (by simp)
  · refine .answer (L := []) (live_of_state (.inl h)) ?_ (.inl rfl) (by simp)
    rintro s ⟨⟩
    exact ⟨rfl, rfl, rfl, by simp [armed_clear, slot]⟩
  · refine .keep ?_ (.inr ⟨_, rfl, updateUacRequest_addr .., fun r => ?_,
      fun _ => updateUacRequest_live ..⟩) ?_
    · rintro s ⟨⟩
      exact .of_state hM rfl rfl rfl id
    · rw [updateUacRequest_eq]
      exact Bool.and_false _
    · simp [Quiet]

theorem abandonedTimeout_answers : (abandonedTimeout t).Answers t new := by
  unfold abandonedTimeout
  split_ifs
  · exact .gone (by simp)
  · exact .stay (.of_state hM rfl rfl rfl (by simp [armed_put, slot])) (by simp)

theorem timerH_answers : (timerH t).Answers t new := by
  have hremoved : ∀ log : List TransLog, (∀ l ∈ log, l.Quiet t new) →
      (Effect.removed.after log).Answers t new :=
    fun log hlog => .gone (by simpa using hlog)
  unfold timerH
  split_ifs
  · cases t.state with
    | TS_PROCEEDING_REL =>
      exact .stay (.of_state hM rfl rfl rfl (by simp [armed_clear, slot])) (by simp [Quiet])
    | TS_TERMINATED_200 | TS_COMPLETED => exact hremoved _ (by simp [Quiet])
    | _ => exact hremoved [] (by simp)
  · exact hremoved [] (by simp)

theorem timerExpired_answers {timer : TransTimer} (htimer : t.getTimer timer.type = some timer) :
    (timerExpired net new t timer).Answers t new := by
  have hremoved : Effect.removed.Answers t new := .gone (by simp)
  have hclear : ∀ type, (t.clearTimer type).FailsOverLive := by
    intro type harmed
    refine hM ?_
    rw [clearTimer, armed_clear] at harmed
    split_ifs at harmed
    exact harmed
  have hends := timerExpired_ends net new t timer
  obtain ⟨type, n⟩ := timer
  cases type with
  | STIMER_M => exact timerM_answers (hM (Timers.armed_iff.2 ⟨n, htimer⟩))
  | STIMER_A => exact .stay (.of_state hM rfl rfl rfl (by simp [armed_put, slot])) (by simp [Quiet])
  | STIMER_E | STIMER_G =>
    refine .stay (.of_state hM rfl rfl rfl (by simp [armed_put, slot])) ?_
    split_ifs
    all_goals simp [Quiet]
  | STIMER_B | STIMER_F =>
    rcases hends (by simp) with ⟨hlive, heq⟩ | ⟨-, heq⟩ | heq <;> rw [heq]
    · exact .of_clearTimer (timeout_answers hlive)
    · exact .of_clearTimer (abandonedTimeout_answers (hclear _))
    · exact hremoved
  | STIMER_C => exact .stay (.of_state hM rfl rfl rfl (by simp [armed_clear, slot])) (by simp)
  | STIMER_H => exact timerH_answers hM
  | STIMER_D | STIMER_K | STIMER_J | STIMER_I | STIMER_L | STIMER_BL => exact hremoved

end Timers

end Sems
