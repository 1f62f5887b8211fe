import Sems.SubscriptionLinks

/-!
# The subscriptions of an `AmSipSubscriptionDialog`

Its handler `onNotify` answers a NOTIFY with 200, which sets the state that the NOTIFY reports, and
then asks the subscription for it. When that is the end of the subscription, `onReplySent` deletes
it before `onNotify` reads it (`onNotify_ended_iff`).

`subscriptionDialog_runs` : in every run in which no NOTIFY that a subscription takes ends it, no
deleted subscription is accessed. The CSeq maps and the usages are right in every run
(`linked_run`).
-/

namespace Sems

open List

namespace AmSipSubscription

open SubCtx (notifyState subStateTxt)

variable {cfg : SubConfig} {env : SubEnv} {s s' : AmSipSubscription} {side : Side} {p q : ℕ}
variable {req : AmSipRequest} {reply : AmSipReply} {cseq : BitVec 32} {code : ℕ}

/-! ## A NOTIFY and its answer -/

/-- `replyFSM` for the 200 for a NOTIFY. -/
theorem replyFSM_notify {clock : ℤ} {c : SubCtx} (hreq : req.method = .NOTIFY) :
    c.replyFSM cfg clock req (newReply req 200 []) =
      c.onNotifyReply cfg clock req (newReply req 200 []) := by
  have hsub : req.method.subscribes = false := by rw [hreq]; decide
  have hcseq : (newReply req 200 []).cseqMethod = .NOTIFY := hreq
  have hfinal : ¬ (newReply req 200 []).code < 200 := lt_irrefl 200
  unfold SubCtx.replyFSM
  rw [if_neg hfinal, if_neg (by rw [hsub]; exact Bool.false_ne_true), if_pos hcseq]

variable {sub : SingleSubscription}

/-- The state after the 200 for a NOTIFY. -/
theorem afterFSM_notify (hreq : req.method = .NOTIFY) (hlive : sub.live = true) :
    (s.afterFSM cfg env sub req (newReply req 200 [])).state = notifyState req.hdrs := by
  have hterm := of_decide_eq_true hlive
  have hok : ¬ 300 ≤ (newReply req 200 []).code := show ¬ 300 ≤ 200 by decide
  rw [afterFSM, replyFSM_notify hreq]
  unfold SubCtx.onNotifyReply
  rw [if_neg hok]
  by_cases hend : notifyState req.hdrs = .terminated
  · rw [if_pos hend, SubCtx.terminate, SubCtx.setState, if_neg hterm, if_pos rfl, hend]
  · rw [if_neg hend]
    rw [SubCtx.setState, if_neg hterm, if_neg hend]

/-- A subscription that a reply does not end stays in the list. -/
theorem mem_ptrs_onReply (h : Linked s) (hp : p ∈ s.ptrs)
    (hfsm : ∀ sub, s.object p = some sub → (s.cseqMap side).find? req.cseq.toNat = some p →
      (s.afterFSM cfg env sub req reply).state ≠ .terminated) :
    p ∈ (s.onReply cfg env side req reply).1.ptrs := by
  cases hm : (s.cseqMap side).find? req.cseq.toNat with
  | none =>
    rw [onReply_of_none hm, ptrs, show (s.noteReply side req.cseq reply.code).subs = s.subs from
      congrArg Core.subs trims_noteReply.core]
    exact hp
  | some q =>
    obtain ⟨sub, hobj⟩ := exists_object (h.maps hm)
    rw [onReply_of_some hm hobj h.nodup]
    split_ifs with hterm
    · refine mem_ptrs_removeSubscription.2 ⟨ptrs_replied.symm ▸ hp, ?_⟩
      rintro rfl
      exact hfsm sub hobj hm hterm
    · exact ptrs_replied.symm ▸ hp

theorem statusOf_eq_terminated {st : Option SubState} :
    statusOf st = .SubscribeTerminated ↔ st = some .terminated := by
  rcases st with _ | st
  · simp [statusOf]
  · cases st <;> simp [statusOf]

section Answer

variable (h : Linked s) (hobj : s.object p = some sub) (hlive : sub.live = true)
variable (hreq : req.method = .NOTIFY)
include h hobj hlive hreq

section Open

variable (hst : (s.trans .uas).get req.cseq ≠ none → notifyState req.hdrs ≠ .terminated)
include hst

theorem mem_ptrs_reply_notify : p ∈ (s.reply cfg env req 200 []).ptrs := by
  have hp := mem_ptrs_of_object hobj
  cases htrans : (s.trans .uas).get req.cseq with
  | none =>
    rw [AmSipSubscription.reply, sendReply, htrans]
    exact hp
  | some r =>
    rcases core_reply_cases cfg env s req 200 [] with hcore | hcore
    · rw [ptrs, show (s.reply cfg env req 200 []).subs = s.subs from congrArg Core.subs hcore]
      exact hp
    · rw [ptrs, show (s.reply cfg env req 200 []).subs = _ from congrArg Core.subs hcore]
      refine mem_ptrs_onReply h hp fun sub' hsub' _ => ?_
      rw [hobj] at hsub'
      cases hsub'
      rw [afterFSM_notify hreq hlive]
      exact hst (by simp [htrans])

theorem dangling_onNotify : (s.onNotify cfg env p req).dangling = s.dangling := by
  unfold onNotify
  split
  · have hp : p ∈ (s.reply cfg env req 200 []).ptrs :=
      mem_ptrs_reply_notify h hobj hlive hreq hst
    obtain ⟨sub', hsub'⟩ := exists_object hp
    dsimp only
    rw [hsub']
    exact dangling_reply h
  · rfl

end Open

variable (hm : (s.cseqMap .uas).find? req.cseq.toNat = some p)
variable (hst : notifyState req.hdrs = .terminated)
variable {r : AmSipRequest} (htrans : (s.trans .uas).get req.cseq = some r)
include hm hst htrans

/-- The 200 for a NOTIFY that ends the subscription posts nothing and deletes it. -/
theorem reply_of_ended (hsent : env.sent req.cseq = true) :
    (s.reply cfg env req 200 []).object p = none ∧
      (s.reply cfg env req 200 []).events = s.events := by
  have hterm : (s.afterFSM cfg env sub req (newReply req 200 [])).state = .terminated := by
    rw [afterFSM_notify hreq hlive, hst]
  obtain ⟨s', hs'⟩ : ∃ s', s.replied cfg env .uas req (newReply req 200 []) p = s' := ⟨_, rfl⟩
  have hcore : (s.reply cfg env req 200 []).core = (s'.removeSubscription env p).core := by
    rw [AmSipSubscription.reply, sendReply, htrans]
    rw [if_pos hsent, onReplySent, onReply_of_some hm hobj h.nodup, if_pos hterm, hs']
    generalize s'.removeSubscription env p = t
    split_ifs <;> rfl
  constructor
  · rw [object_congr (show (s.reply cfg env req 200 []).subs = _ from congrArg Core.subs hcore)]
    cases hobj' : (s'.removeSubscription env p).object p with
    | none => rfl
    | some sub' => exact absurd rfl (mem_ptrs_removeSubscription.1 (mem_ptrs_of_object hobj')).2
  · have hsame : (s.reply cfg env req 200 []).events = s'.events :=
      (congrArg Core.events hcore).trans (congrArg Core.events core_removeSubscription)
    rw [hsame, ← hs', replied_eq hobj, replyFSM_notify hreq]
    simp only [SubCtx.onNotifyReply, newReply, show ¬ 300 ≤ 200 by decide, if_false, hst, if_true,
      SubCtx.terminate, SubCtx.setState]
    split_ifs <;> rfl

/-- One event is posted for a NOTIFY that ends its subscription. It has the right status only when
the answer went out and the memory of the deleted subscription still reads as terminated. -/
theorem onNotify_ended_iff (hdlg : cfg.dialog = true) :
    (∃ ev, (s.onNotify cfg env p req).events = s.events ++ [ev] ∧
        ev.status = .SubscribeTerminated) ↔
      env.sent req.cseq = true ∧ env.freedState = some .terminated := by
  unfold onNotify
  rw [if_pos hdlg]
  dsimp only
  by_cases hsent : env.sent req.cseq = true
  · have hended : (s.reply cfg env req 200 []).object p = none ∧
        (s.reply cfg env req 200 []).events = s.events :=
      reply_of_ended h hobj hlive hreq hm hst htrans hsent
    obtain ⟨hgone, hevents⟩ := hended
    rw [hgone]
    rw [hevents, and_iff_right hsent, ← statusOf_eq_terminated]
    constructor
    · rintro ⟨ev, hev, hstatus⟩
      cases singleton_inj.1 (append_cancel_left hev)
      exact hstatus
    · exact fun hstatus => ⟨_, rfl, hstatus⟩
  · have hsame : s.reply cfg env req 200 [] = s := by
      rw [AmSipSubscription.reply, sendReply, htrans]
      exact if_neg hsent
    rw [hsame, hobj]
    constructor
    · rintro ⟨ev, hev, hstatus⟩
      cases singleton_inj.1 (append_cancel_left hev)
      exact absurd (Option.some.inj (statusOf_eq_terminated.1 hstatus)) (of_decide_eq_true hlive)
    · exact fun hc => absurd hc.1 hsent

end Answer

/-! ## Which NOTIFY a subscription takes -/

/-- A subscription that is not terminated is there for a received NOTIFY. -/
def takesNotify (s : AmSipSubscription) (req : AmSipRequest) (toTag : Str) : Bool :=
  !s.createsNew req toTag false &&
    (s.matching .Subscriber (eventOf req).1 (eventOf req).2).any SingleSubscription.live

variable {toTag : Str}

theorem takesNotify_received :
    (s.received req).takesNotify req toTag = s.takesNotify req toTag := by
  simp only [takesNotify, createsNew, matching, (received_same s req).1, Bool.false_and,
    Bool.or_false]

theorem takesNotify_of_matched (hreq : req.method = .NOTIFY)
    (h : (s.matchSubscription env req toTag false).2 = some p) :
    s.takesNotify req toTag = true := by
  unfold matchSubscription at h
  by_cases hnew : s.createsNew req toTag false
  · rw [if_pos hnew] at h
    have hmake : s.makeSubscription req false = none := by
      simp only [makeSubscription, hreq]
      rfl
    rw [createSubscription, hmake] at h
    cases h
  · rw [if_neg hnew, hreq] at h
    dsimp only [roleOf] at h
    rw [if_neg (by decide), if_pos rfl] at h
    dsimp only at h
    rw [if_neg (fun hc => by cases hc.2 : ¬ (_ ∧ SipMethod.NOTIFY = .SUBSCRIBE))] at h
    unfold findSubscription at h
    simp only [takesNotify, Bool.not_eq_true] at hnew ⊢
    rw [hnew]
    cases hmatch : s.matching .Subscriber (eventOf req).1 (eventOf req).2 with
    | none =>
      simp only [Bool.false_eq_true, if_false] at h
      rw [hmatch] at h
      cases h
    | some sub =>
      simp only [Bool.false_eq_true, if_false] at h
      rw [hmatch] at h
      dsimp only at h
      split_ifs at h with hterm
      simp [SingleSubscription.live, hterm]

/-! ## Runs without a NOTIFY that ends its subscription -/

/-- A NOTIFY that a subscription takes does not end it. One that is sent counts where its CSeq is
also that of a received request, to which the handler's answer then goes. -/
def ReportsOpen (cfg : SubConfig) (s : AmSipSubscription) : SubEnv × SubEv → Prop
  | (_, .rxRequest req toTag _) =>
    s.passesSanity cfg req = true → req.method = .NOTIFY → s.takesNotify req toTag = true →
      notifyState req.hdrs ≠ .terminated
  | (_, .sendRequest method hdrs _) =>
    method = .NOTIFY → (s.trans .uas).get s.cseq ≠ none → notifyState hdrs ≠ .terminated
  | _ => True

theorem dangling_requestFSM (h : Linked s) (hobj : s.object p = some sub)
    (hlive : req.method = .NOTIFY → sub.live = true)
    (hst : req.method = .NOTIFY → (s.trans .uas).get req.cseq ≠ none →
      notifyState req.hdrs ≠ .terminated) :
    (s.requestFSM cfg env p req).dangling = s.dangling := by
  unfold requestFSM
  split_ifs with hsub hreq
  · exact dangling_withObject (mem_ptrs_of_object hobj)
  · exact dangling_onNotify h hobj (hlive hreq) hreq (hst hreq)
  · rfl

/-- A SUBSCRIBE or REFER that a subscription takes. -/
theorem dangling_subscribe (h : Linked s) (hp : p ∈ s.ptrs) (hsub : req.method.subscribes = true) :
    (((s.assign side cseq p).accept side cseq p).requestFSM cfg env p req).dangling =
      s.dangling := by
  have hassign : Linked (s.assign side cseq p) := h.assign hp
  have hin : p ∈ ((s.assign side cseq p).accept side cseq p).ptrs := by
    rw [ptrs_accept]
    exact hp
  obtain ⟨sub, hobj⟩ := exists_object hin
  have hne : ∀ {P : Prop}, req.method = .NOTIFY → P := fun heq => by
    rw [heq] at hsub
    exact absurd hsub (by decide)
  refine (dangling_requestFSM hassign.accept hobj hne hne).trans ?_
  exact dangling_withObject hp

variable {retryAfter : Str}

theorem dangling_onRequestIn (h : Linked s)
    (hst : req.method = .NOTIFY → s.takesNotify req toTag = true →
      notifyState req.hdrs ≠ .terminated) :
    (s.onRequestIn cfg env req toTag retryAfter).1.dangling = s.dangling := by
  unfold onRequestIn
  have htakes : ∀ {p}, req.method = .NOTIFY → (s.matchSubscription env req toTag false).2 = some p →
      s.takesNotify req toTag = true := takesNotify_of_matched
  obtain ⟨s1, found, hres, hmatch⟩ := h.matchSubscription env req toTag false
  rw [hres] at htakes ⊢
  cases found with
  | none =>
    dsimp only
    split_ifs
    · exact hmatch.dangling
    · exact (dangling_reply hmatch.linked).trans hmatch.dangling
  | some p =>
    dsimp only
    obtain ⟨sub, hobj, hlive⟩ := hmatch.live rfl
    rw [hobj]
    dsimp only
    rw [if_neg (of_decide_eq_true hlive)]
    have hp := mem_ptrs_of_object hobj
    have hassign : Linked (s1.assign .uas req.cseq p) := hmatch.linked.assign hp
    have hptr : sub.ptr = p := (mem_of_object hobj).2
    have hobj' : (s1.assign .uas req.cseq p).object p = some sub := hobj
    unfold subOnRequestIn
    split_ifs with hsub hpend
    · exact (dangling_reply hassign).trans hmatch.dangling
    · rw [hptr]
      exact (dangling_subscribe hmatch.linked hp hsub).trans hmatch.dangling
    · rw [hptr]
      refine (dangling_requestFSM hassign hobj' (fun _ => hlive) fun hreq _ => ?_).trans
        hmatch.dangling
      exact hst hreq (htakes hreq rfl)

theorem dangling_onRequestSent (h : Linked s)
    (hst : req.method = .NOTIFY → (s.trans .uas).get req.cseq ≠ none →
      notifyState req.hdrs ≠ .terminated) :
    (s.onRequestSent cfg env req).dangling = s.dangling := by
  unfold onRequestSent
  obtain ⟨s1, found, hres, hmatch⟩ := h.matchSubscription env req [] true
  rw [hres]
  cases found with
  | none => exact hmatch.dangling
  | some p =>
    obtain ⟨sub, hobj, hlive⟩ := hmatch.live rfl
    have hp := mem_ptrs_of_object hobj
    have hassign : Linked (s1.assign .uac req.cseq p) := hmatch.linked.assign hp
    have hst' : req.method = .NOTIFY → (s1.trans .uas).get req.cseq ≠ none →
        notifyState req.hdrs ≠ .terminated := fun hreq hne => by
      obtain ⟨r, hr⟩ := Option.ne_none_iff_exists'.1 hne
      exact hst hreq (by rw [hmatch.trans hr]; exact nofun)
    split_ifs with hsub
    · exact (dangling_subscribe hmatch.linked hp hsub).trans hmatch.dangling
    · exact (dangling_requestFSM hassign hobj (fun _ => hlive)
        hst').trans hmatch.dangling

theorem dangling_terminate : s.terminate.dangling = s.dangling := by
  have hall : ∀ (l : List SingleSubscription) (s : AmSipSubscription),
      (∀ sub ∈ l, sub.ptr ∈ s.ptrs) →
        (l.foldl (fun s sub => s.withObject sub.ptr SubCtx.terminate) s).dangling = s.dangling := by
    intro l
    induction l with
    | nil => exact fun _ _ => rfl
    | cons sub l ih =>
      intro s hl
      obtain ⟨hsub, hl⟩ := forall_mem_cons.1 hl
      refine (ih _ fun sub' hsub' => ?_).trans (dangling_withObject hsub)
      rw [ptrs_withObject fun _ => SubCtx.leaves_terminate.toKeeps]
      exact hl sub' hsub'
  exact hall s.subs s fun sub hsub => mem_map_of_mem hsub

theorem dangling_onTimeout : (s.onTimeout cfg env p).dangling = s.dangling := by
  unfold onTimeout
  cases hobj : s.object p with
  | none => split_ifs <;> rfl
  | some sub =>
    have hend : ((s.withObject p SubCtx.terminate).removeSubscription env p).dangling =
        s.dangling :=
      (congrArg Core.dangling core_removeSubscription).trans
        (dangling_withObject (mem_ptrs_of_object hobj))
    split_ifs <;> exact hend

theorem dangling_step {ev : SubEnv × SubEv} (h : Linked s) (hok : s.ReportsOpen cfg ev) :
    (s.step cfg ev).dangling = s.dangling := by
  obtain ⟨env, ev⟩ := ev
  cases ev with
  | rxRequest req toTag retryAfter =>
    show (s.onRxRequest cfg env req toTag retryAfter).dangling = s.dangling
    rw [onRxRequest_eq]
    split_ifs with hsane
    · refine (dangling_onRequestIn h.received fun hreq htakes => ?_).trans
        (received_same s req).2.2.1
      exact hok hsane hreq (takesNotify_received.symm.trans htakes)
    · rfl
  | rxReply reply =>
    show (s.onRxReply cfg env reply).dangling = s.dangling
    unfold onRxReply
    cases (s.trans .uac).get reply.cseq with
    | none => rfl
    | some req =>
      have hreply : (s.onReplyIn cfg env req reply).1.dangling = s.dangling := dangling_onReply h
      split_ifs <;> exact hreply
  | sendRequest method hdrs sent =>
    unfold step
    dsimp only
    split_ifs
    · have hsent : (s.onRequestSent cfg env (s.newRequest method hdrs)).dangling = s.dangling :=
        dangling_onRequestSent h hok
      unfold onRequestTxed
      split_ifs <;> exact hsent
    · rfl
  | reply cseq code hdrs =>
    show (s.answer cfg env cseq code hdrs).dangling = s.dangling
    unfold answer
    cases (s.trans .uas).get cseq with
    | none => rfl
    | some req => exact dangling_reply h
  | timeout p => exact dangling_onTimeout
  | terminate => exact dangling_terminate
  | subscriptionExists role event id => exact h.findSubscription.dangling
  | allowUnsolicitedNotify allow => rfl

/-! ## The event for a NOTIFY -/

theorem matchSubscription_of_takes (h : Linked s) (hreq : req.method = .NOTIFY)
    (htakes : s.takesNotify req toTag = true) :
    ∃ sub, s.object sub.ptr = some sub ∧ sub.live = true ∧
      s.matchSubscription env req toTag false = (s, some sub.ptr) := by
  simp only [takesNotify, Bool.and_eq_true, Bool.not_eq_true'] at htakes
  obtain ⟨hnew, hany⟩ := htakes
  obtain ⟨sub, hmatch⟩ :
      ∃ sub, s.matching .Subscriber (eventOf req).1 (eventOf req).2 = some sub := by
    cases hmatch : s.matching .Subscriber (eventOf req).1 (eventOf req).2 with
    | none =>
      rw [hmatch] at hany
      exact nomatch hany
    | some sub => exact ⟨sub, rfl⟩
  have hlive : sub.live = true := by
    rw [hmatch] at hany
    exact hany
  refine ⟨sub, object_of_mem h.nodup (mem_of_find?_eq_some hmatch), hlive, ?_⟩
  have hterm := of_decide_eq_true hlive
  have hrole : roleOf req.method false = some .Subscriber := by rw [hreq]; rfl
  have hfind : s.findSubscription env .Subscriber (eventOf req).1 (eventOf req).2 =
      (s, some sub.ptr) := by
    rw [findSubscription, hmatch]
    exact if_neg hterm
  rw [matchSubscription, hnew, hrole]
  simp only [hfind, Bool.false_eq_true, if_false, reduceCtorEq, false_and]

theorem onRequestIn_of_takes (hreq : req.method = .NOTIFY) (hobj : s.object sub.ptr = some sub)
    (hlive : sub.live = true)
    (hmatch : s.matchSubscription env req toTag false = (s, some sub.ptr)) :
    (s.onRequestIn cfg env req toTag retryAfter).1 =
      (s.assign .uas req.cseq sub.ptr).onNotify cfg env sub.ptr req := by
  have hsub : req.method.subscribes = false := by rw [hreq]; decide
  rw [onRequestIn, hmatch]
  dsimp only
  rw [hobj]
  dsimp only
  have hno : ¬ req.method.subscribes = true := by rw [hsub]; exact Bool.false_ne_true
  rw [if_neg (of_decide_eq_true hlive), subOnRequestIn, if_neg hno, requestFSM, if_neg hno,
    if_pos hreq]

theorem notify_event_iff (h : Linked s) (hdlg : cfg.dialog = true)
    (hsane : s.passesSanity cfg req = true) (hreq : req.method = .NOTIFY)
    (htakes : s.takesNotify req toTag = true) (hst : notifyState req.hdrs = .terminated) :
    (∃ ev, (s.onRxRequest cfg env req toTag retryAfter).events = s.events ++ [ev] ∧
        ev.status = .SubscribeTerminated) ↔
      env.sent req.cseq = true ∧ env.freedState = some .terminated := by
  have hreceived : Linked (s.received req) := h.received
  have htakes' : (s.received req).takesNotify req toTag = true :=
    takesNotify_received.trans htakes
  obtain ⟨sub, hobj, hlive, hmatch⟩ :=
    matchSubscription_of_takes hreceived hreq htakes'
  have hassign : Linked ((s.received req).assign .uas req.cseq sub.ptr) :=
    hreceived.assign (mem_ptrs_of_object hobj)
  have hrx : s.onRxRequest cfg env req toTag retryAfter =
      ((s.received req).assign .uas req.cseq sub.ptr).onNotify cfg env sub.ptr req := by
    rw [onRxRequest_eq, if_pos hsane, onRequestIn_of_takes hreq hobj hlive hmatch]
  have hm : (((s.received req).assign .uas req.cseq sub.ptr).cseqMap .uas).find? req.cseq.toNat =
      some sub.ptr := by
    unfold assign
    exact OrdMap.find?_insert
  rw [hrx, ← show (s.received req).events = s.events from (received_same s req).2.1]
  exact onNotify_ended_iff hassign hobj hlive
    hreq hm hst get_received hdlg

/-- In every run the CSeq maps have subscriptions of the list only, the usages are the subscriptions
that are not terminated, and for a NOTIFY that reports neither active nor pending the application
gets one event with the status terminated just when the answer goes out and the memory of the
deleted subscription still reads so. No deleted subscription is accessed in runs without a NOTIFY
that ends its subscription. -/
theorem subscriptionDialog_runs (ignoreLower allow : Bool) (callid remoteTag : Str)
    (cseq : BitVec 32) (evs : List (SubEnv × SubEv)) :
    let cfg : SubConfig := ⟨true, ignoreLower⟩
    let start := init callid remoteTag cseq allow
    let s := runFrom (step cfg) start evs
    (∀ side c p, (s.cseqMap side).find? c = some p → ∃ sub ∈ s.subs, sub.ptr = p) ∧
      s.usages = s.subs.countP (fun sub => sub.state ≠ .terminated) ∧
      (RunOk (step cfg) (ReportsOpen cfg) start evs → s.dangling = false) ∧
      ∀ env req toTag retryAfter, s.passesSanity cfg req = true → req.method = .NOTIFY →
        s.takesNotify req toTag = true → subStateTxt req.hdrs ≠ "active".toList →
        subStateTxt req.hdrs ≠ "pending".toList →
        ((∃ ev, (s.step cfg (env, .rxRequest req toTag retryAfter)).events = s.events ++ [ev] ∧
            ev.status = .SubscribeTerminated) ↔
          env.sent req.cseq = true ∧ env.freedState = some .terminated) := by
  intro cfg start s
  have hlinked : Linked s := linked_run
  refine ⟨fun side c p hm => ?_, hlinked.usages, fun hok => ?_, ?_⟩
  · obtain ⟨sub, hsub, hptr⟩ := mem_map.1 (hlinked.maps hm)
    exact ⟨sub, hsub, hptr⟩
  · have hinv := RunOk.inv (I := fun s => Linked s ∧ s.dangling = false)
        (fun h hev => ⟨h.1.step, (dangling_step h.1 hev).trans h.2⟩) ⟨linked_init, rfl⟩ hok
    exact hinv.2
  · intro env req toTag retryAfter hsane hreq htakes hactive hpending
    refine notify_event_iff hlinked rfl hsane hreq htakes ?_
    rw [notifyState, if_neg fun hc => hactive hc.2, if_neg fun hc => hpending hc.2]

/-- A NOTIFY of the remote party with this Subscription-State. -/
def notifyWith (cseq : BitVec 32) (subState : String) : AmSipRequest :=
  ⟨.NOTIFY, cseq, 0, 0, "call".toList, "remote".toList,
    "Event: presence\r\nSubscription-State: ".toList ++ subState.toList ++ CRLF, AmMimeBody.none⟩

/-- A subscription that the remote party accepts and reports as active. -/
def subscribedRun : List (SubEnv × SubEv) :=
  [(sendingEnv, .sendRequest .SUBSCRIBE "Event: presence\r\n".toList true),
    (sendingEnv, .rxReply ⟨200, .SUBSCRIBE, 1, 0, "remote".toList, "Expires: 60\r\n".toList,
      AmMimeBody.none⟩),
    (sendingEnv, .rxRequest (notifyWith 1 "active;expires=60") "local".toList [])]

/-- The state of an `AmSipSubscriptionDialog` after some events. -/
def dialogAfter (evs : List (SubEnv × SubEv)) : AmSipSubscription :=
  runFrom (step ⟨true, false⟩) (init "call".toList [] 1 false) evs

theorem subscriptionDialog_runs_active :
    RunOk (step ⟨true, false⟩) (ReportsOpen ⟨true, false⟩) (init "call".toList [] 1 false)
        subscribedRun ∧
      (dialogAfter subscribedRun).dangling = false ∧
      (dialogAfter subscribedRun).events.map SIPSubscriptionEvent.status = [.SubscribeActive] := by
  have hok : RunOk (step ⟨true, false⟩) (ReportsOpen ⟨true, false⟩) (init "call".toList [] 1 false)
      subscribedRun := by
    refine ⟨nofun, trivial, fun _ _ _ => ?_, trivial⟩
    decide
  exact ⟨hok, (subscriptionDialog_runs false false "call".toList [] 1 subscribedRun).2.2.1 hok,
    by decide +kernel⟩

/-- At the final NOTIFY of an active subscription the deleted subscription is read, and the
application is not told of its end. -/
theorem notify_terminated_readsFreed :
    let s := dialogAfter (subscribedRun ++
      [(sendingEnv, .rxRequest (notifyWith 2 "terminated") "local".toList [])])
    s.dangling = true ∧ s.subs = [] ∧
      s.events.map SIPSubscriptionEvent.status = [.SubscribeActive, .SubscribeFailed] := by
  decide +kernel

end AmSipSubscription

end Sems
