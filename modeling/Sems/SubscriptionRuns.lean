import Sems.SubscriptionCounts

/-!
# Final replies to the requests of a subscription

`subscription_runs` : in every run with the conditions of `Orderly`, `replyFSM` of a subscription
works once on each final reply to a request it was given, and `pending_subscribe` is the number of
its SUBSCRIBE and REFER requests without a final reply. Such a request is to get no provisional
reply, no SUBSCRIBE comes for a subscription that has one pending, and no request has the CSeq of
an open one.

A refused SUBSCRIBE is put into the CSeq map before it is refused, so the 500 goes through
`replyFSM` and counts as the answer to the pending one (`refused_kept_iff`).
-/

namespace Sems

open List Function SingleSubscription Option TransMap

namespace AmSipSubscription

variable {cfg : SubConfig} {env : SubEnv} {s s' : AmSipSubscription} {side : Side} {p q : ℕ}
variable {req : AmSipRequest} {reply : AmSipReply} {cseq : BitVec 32} {code : ℕ}
variable {P : ℕ → Prop} {u : BitVec 32 → Option SipMethod}

/-! ## Transactions of the client side -/

/-- The open requests of the client side. -/
def uacOpen (s : AmSipSubscription) (c : BitVec 32) : Option SipMethod :=
  ((s.trans .uac).get c).map AmSipRequest.method

/-! ## The steps of the dialog -/

/-- A SUBSCRIBE for a subscription that has one pending. -/
def overlaps (s : AmSipSubscription) (req : AmSipRequest) (toTag : Str) : Bool :=
  decide (req.method = .SUBSCRIBE) && !s.createsNew req toTag false &&
    (s.matching .Notifier (eventOf req).1 (eventOf req).2).any fun sub =>
      sub.live && decide (sub.pendingSubscribe ≠ 0)

/-- A request of a subscription has no provisional reply, no SUBSCRIBE overlaps another one, and no
request has the CSeq of an open one. This includes a NOTIFY that an `AmSipSubscriptionDialog` sends,
which its handler answers as if it had been received. -/
def Orderly (cfg : SubConfig) (s : AmSipSubscription) : SubEnv × SubEv → Prop
  | (_, .rxRequest req toTag _) =>
    s.passesSanity cfg req = true →
      (s.trans .uas).get req.cseq = none ∧ s.overlaps req toTag = false
  | (_, .rxReply reply) => 200 ≤ reply.code ∨ (s.cseqMap .uac).find? reply.cseq.toNat = none
  | (_, .sendRequest method _ _) =>
    (s.trans .uac).get s.cseq = none ∧
      (cfg.dialog = true → method = .NOTIFY → (s.trans .uas).get s.cseq = none)
  | (_, .reply cseq code _) => 200 ≤ code ∨ (s.cseqMap .uas).find? cseq.toNat = none
  | _ => True

variable {toTag : Str} {sub : SingleSubscription}

/-- What is found for a SUBSCRIBE or REFER that does not overlap has nothing pending. -/
theorem pending_of_matched (hl : Linked s) (hsub : req.method.subscribes = true)
    (hover : s.overlaps req toTag = false)
    (hfound : (s.matchSubscription env req toTag false).2 = some p)
    (hobj : (s.matchSubscription env req toTag false).1.object p = some sub) :
    sub.pendingSubscribe = 0 := by
  have hcreated : ∀ {s : AmSipSubscription} (_ : Linked s),
      (s.createSubscription req false).2 = some p →
      (s.createSubscription req false).1.object p = some sub → sub.pendingSubscribe = 0 := by
    intro s hl hfound hobj
    have hn : (s.createSubscription req false).1.ptrs.Nodup := hl.createSubscription.linked.nodup
    unfold AmSipSubscription.createSubscription at hfound hobj hn
    cases hmake : s.makeSubscription req false with
    | none =>
      rw [hmake] at hfound
      cases hfound
    | some new =>
      rw [hmake] at hfound hobj hn
      cases hfound
      rw [object_of_mem hn (mem_append_right _ (mem_singleton_self new))] at hobj
      cases hobj
      simp only [makeSubscription] at hmake
      split_ifs at hmake <;> cases hmake <;> rfl
  unfold AmSipSubscription.matchSubscription at hfound hobj
  by_cases hnew : s.createsNew req toTag false
  · rw [if_pos hnew] at hfound hobj
    exact hcreated hl hfound hobj
  have hmethod : req.method = .SUBSCRIBE := by
    have hrefer : req.method ≠ .REFER := fun heq => hnew (by simp [createsNew, heq])
    simpa [SipMethod.subscribes, hrefer] using hsub
  have hrole : roleOf req.method false = some .Notifier := by rw [hmethod]; rfl
  rw [if_neg hnew, hrole] at hfound hobj
  dsimp only at hfound hobj
  split_ifs at hfound hobj
  · exact hcreated hl.findSubscription.linked hfound hobj
  unfold AmSipSubscription.findSubscription at hfound hobj
  cases hmatch : s.matching .Notifier (eventOf req).1 (eventOf req).2 with
  | none =>
    rw [hmatch] at hfound
    cases hfound
  | some sub' =>
    rw [hmatch] at hfound hobj
    dsimp only at hfound hobj
    split_ifs at hfound hobj with hterm
    cases hfound
    rw [object_of_mem hl.nodup (mem_of_find?_eq_some hmatch)] at hobj
    cases hobj
    simpa [overlaps, hmethod, hnew, hmatch, live, hterm] using hover

/-! ## A transaction of the server side that no subscription has -/

variable {c : BitVec 32}

theorem uas_dropUas {key : ℕ} (hl : Linked s) (hkey : key < 2 ^ 32) (hc : key ≠ c.toNat) :
    ((s.dropUas env key).trans .uas).get c = (s.trans .uas).get c := by
  unfold AmSipSubscription.dropUas
  dsimp only
  cases htrans : ((s.setMap .uas ((s.cseqMap .uas).erase key)).trans .uas).get
      (BitVec.ofNat 32 key) with
  | none => rfl
  | some req =>
    have hcseq := hl.keyed htrans
    have hne : c ≠ req.cseq := by
      rintro rfl
      rw [hcseq, BitVec.toNat_ofNat, Nat.mod_eq_of_lt hkey] at hc
      exact hc rfl
    have hnoted : ((s.setMap .uas ((s.cseqMap .uas).erase key)).noteReply .uas req.cseq 481).trans =
        s.trans := trans_noteReply
    unfold sendReply
    dsimp only
    rw [hcseq, htrans, ← hcseq]
    split_ifs
    · rw [trans_setTrans, update_self, hnoted, get_remove_ne hne]
    · rw [hnoted]
    · rfl

theorem uas_removeSubscription (hl : Linked s) (hm : (s.cseqMap .uas).find? c.toNat = none) :
    ((s.removeSubscription env p).trans .uas).get c = (s.trans .uas).get c := by
  have hfold : ∀ (l : List (ℕ × ℕ)) (s : AmSipSubscription), Linked s →
      (∀ e ∈ l, e.1 < 2 ^ 32 ∧ e.1 ≠ c.toNat) →
      ((l.foldl (fun s e => s.dropUas env e.1) s).trans .uas).get c = (s.trans .uas).get c := by
    intro l
    induction l with
    | nil => exact fun _ _ _ => rfl
    | cons e l ih =>
      intro s hl hkeys
      obtain ⟨he, hrest⟩ := forall_mem_cons.1 hkeys
      exact (ih _ (hl.of_trims trims_dropUas) hrest).trans (uas_dropUas hl he.1 he.2)
  have hluac : Linked (s.removeSubFromUACCSeqMap p) :=
    hl.of_trims trims_removeSubFromUACCSeqMap
  have htrans : (s.removeSubFromUACCSeqMap p).trans = s.trans := by
    rw [removeSubFromUACCSeqMap_eq]
    rfl
  have huas : (s.removeSubFromUACCSeqMap p).cseqMap .uas = s.cseqMap .uas := by
    rw [cseqMap_removeSubFromUACCSeqMap, update_of_ne (by decide)]
  refine (hfold _ _ hluac fun e he => ?_).trans (by rw [htrans])
  have hfound := OrdMap.find?_eq_some_iff.2 (mem_filter.1 he).1
  refine ⟨hluac.small hfound, fun heq => ?_⟩
  rw [huas, heq, hm] at hfound
  exact nomatch hfound

theorem uas_matchSubscription {uac : Bool} (hl : Linked s)
    (hm : (s.cseqMap .uas).find? c.toNat = none) :
    ((s.matchSubscription env req toTag uac).1.trans .uas).get c = (s.trans .uas).get c := by
  have hcreate : ∀ s : AmSipSubscription, (s.createSubscription req uac).1.trans = s.trans := by
    intro s
    unfold AmSipSubscription.createSubscription
    cases s.makeSubscription req uac <;> rfl
  have hfind : ∀ role event id,
      ((s.findSubscription env role event id).1.trans .uas).get c = (s.trans .uas).get c := by
    intro role event id
    unfold AmSipSubscription.findSubscription
    cases s.matching role event id with
    | none => rfl
    | some sub =>
      dsimp only
      split_ifs
      · exact uas_removeSubscription hl hm
      · rfl
  rcases matchSubscription_cases s env req toTag uac with heq | heq | ⟨role, heq | heq⟩ <;> rw [heq]
  · rw [hcreate]
  · exact hfind _ _ _
  · rw [hcreate]
    exact hfind _ _ _

/-! ## Every step keeps the counts -/

variable {retryAfter : Str}

theorem Counted.onRequestIn (h : AllCounted u s) (hl : Linked s)
    (htrans : (s.trans .uas).get req.cseq = some req)
    (howed : (s.owed .uas).find? req.cseq.toNat = none) (hover : s.overlaps req toTag = false) :
    AllCounted u (s.onRequestIn cfg env req toTag retryAfter).1 := by
  have hmap : (s.cseqMap .uas).find? req.cseq.toNat = none := by
    rw [eq_none_iff_forall_ne_some]
    intro p hp
    obtain ⟨a, ha, -⟩ := h.owns hp
    rw [howed] at ha
    exact nomatch ha
  have hcounted := h.matchSubscription hl env req toTag false
  have hget : ((s.matchSubscription env req toTag false).1.trans .uas).get req.cseq = some req :=
    (uas_matchSubscription hl hmap).trans htrans
  have hzero : ∀ {p sub}, req.method.subscribes = true →
      (s.matchSubscription env req toTag false).2 = some p →
      (s.matchSubscription env req toTag false).1.object p = some sub →
      sub.pendingSubscribe = 0 := fun hsub => pending_of_matched hl hsub hover
  unfold AmSipSubscription.onRequestIn
  obtain ⟨s1, found, hres, hmatch⟩ := hl.matchSubscription env req toTag false
  rw [hres] at hcounted hget hzero ⊢
  have hsame : ∀ r, (s1.trans .uas).get req.cseq = some r → r = req := fun r hr =>
    some.inj (hr.symm.trans hget)
  have howed1 : (s1.owed .uas).find? req.cseq.toNat = none := by
    rw [eq_none_iff_forall_ne_some] at howed ⊢
    exact fun a ha => howed a (hmatch.owed ha)
  cases found with
  | none =>
    dsimp only
    split_ifs
    · exact hcounted
    · exact counted_reply hcounted hmatch.linked hsame (.inl (by decide))
  | some p =>
    dsimp only
    obtain ⟨sub, hobj, hlive⟩ := hmatch.live rfl
    have hp := mem_ptrs_of_object hobj
    have hptr : sub.ptr = p := (mem_of_object hobj).2
    rw [hobj]
    dsimp only
    rw [if_neg (of_decide_eq_true hlive), subOnRequestIn, hptr]
    by_cases hsub : req.method.subscribes = true
    · rw [if_pos hsub, if_neg (not_not.2 (hzero hsub rfl hobj))]
      have haccepted := hcounted.subscribe hmatch.linked hp howed1 ⟨req, hget, hsub⟩
      refine haccepted.requestFSM (hmatch.linked.assign hp).accept fun _ hreq => ?_
      rw [hreq] at hsub
      exact absurd hsub (by decide)
    · rw [if_neg hsub]
      have hassigned := hcounted.assign hmatch.linked hp howed1 ⟨req, hget, by simpa using hsub⟩
      exact hassigned.requestFSM (hmatch.linked.assign hp) fun _ _ => hsame

theorem Counted.onRequestSent (h : AllCounted u s) (hl : Linked s)
    (hu : u req.cseq = some req.method) (howed : (s.owed .uac).find? req.cseq.toNat = none)
    (hnotify : cfg.dialog = true → req.method = .NOTIFY → (s.trans .uas).get req.cseq = none) :
    AllCounted u (s.onRequestSent cfg env req) := by
  have hcounted := h.matchSubscription hl env req [] true
  unfold AmSipSubscription.onRequestSent
  obtain ⟨s1, found, hres, hmatch⟩ := hl.matchSubscription env req [] true
  rw [hres] at hcounted ⊢
  cases found with
  | none => exact hcounted
  | some p =>
    obtain ⟨sub, hobj, hlive⟩ := hmatch.live rfl
    have hp := mem_ptrs_of_object hobj
    have howed1 : (s1.owed .uac).find? req.cseq.toNat = none := by
      rw [eq_none_iff_forall_ne_some] at howed ⊢
      exact fun a ha => howed a (hmatch.owed ha)
    split_ifs with hsub
    · have haccepted := hcounted.subscribe hmatch.linked hp howed1 ⟨req.method, hu, hsub⟩
      refine haccepted.requestFSM (hmatch.linked.assign hp).accept fun _ hreq => ?_
      rw [hreq] at hsub
      exact absurd hsub (by decide)
    · have hassigned :=
        hcounted.assign hmatch.linked hp howed1 ⟨req.method, hu, by simpa using hsub⟩
      refine hassigned.requestFSM (hmatch.linked.assign hp) fun hdlg hreq r hr => ?_
      have hr' := hmatch.trans (show (s1.trans .uas).get req.cseq = some r from hr)
      rw [hnotify hdlg hreq] at hr'
      exact nomatch hr'

/-- Another view of the open requests of the client side. -/
theorem Counted.of_uac {u' : BitVec 32 → Option SipMethod} (h : Counted P u s)
    (hu : ∀ {c a}, (s.owed .uac).find? c.toNat = some a → u' c = u c) : Counted P u' s :=
  { h with uac := fun ha => by rw [hu ha]; exact h.uac ha }

theorem Counted.received (h : AllCounted u s)
    (hnew : (s.trans .uas).get req.cseq = none) :
    AllCounted u (s.received req) := by
  obtain ⟨hsubs, -, -, hnext, hmap, howed, hdue, hdone, -⟩ := received_same s req
  rw [AllCounted, ptrs, hsubs]
  refine h.of_core hsubs hnext hmap howed hdue hdone fun {c a r} _ hr => ?_
  rw [get_received_ne, hr]
  rintro rfl
  rw [hnew] at hr
  cases hr

theorem overlaps_received : (s.received req).overlaps req toTag = s.overlaps req toTag := by
  simp only [overlaps, createsNew, matching, (received_same s req).1, Bool.false_and, Bool.or_false]

/-- An ACK is for no subscription. -/
theorem owed_onRequestSent_ack {c : ℕ} {a : Assigned} (hl : Linked s) (hack : req.method = .ACK)
    (ha : ((s.onRequestSent cfg env req).owed side).find? c = some a) :
    (s.owed side).find? c = some a := by
  have hnone : (s.matchSubscription env req [] true).2 = none := by
    unfold AmSipSubscription.matchSubscription
    by_cases hnew : s.createsNew req [] true
    · have hmake : s.makeSubscription req true = none := by
        simp only [makeSubscription, hack]
        rfl
      rw [if_pos hnew, AmSipSubscription.createSubscription, hmake]
    · rw [if_neg hnew, hack]
      rfl
  obtain ⟨s1, found, hres, hmatch⟩ := hl.matchSubscription env req [] true
  rw [hres] at hnone
  obtain rfl : found = none := hnone
  rw [AmSipSubscription.onRequestSent, hres] at ha
  exact hmatch.owed ha

/-- The invariant of the runs. -/
structure Tallied (s : AmSipSubscription) : Prop where
  linked : Linked s
  counted : Counted (· ∈ s.ptrs) s.uacOpen s

theorem Tallied.of_step (hs : Serves s s') (hc : AllCounted s.uacOpen s') : Tallied s' :=
  ⟨hs.linked, hc.of_uac fun _ => by rw [uacOpen, uacOpen, hs.uac]⟩

theorem Tallied.onRxRequest (h : Tallied s)
    (hok : s.passesSanity cfg req = true →
      (s.trans .uas).get req.cseq = none ∧ s.overlaps req toTag = false) :
    Tallied (s.onRxRequest cfg env req toTag retryAfter) := by
  have hlinked : Linked (s.onRxRequest cfg env req toTag retryAfter) := h.linked.onRxRequest
  rw [onRxRequest_eq] at hlinked ⊢
  by_cases hsane : s.passesSanity cfg req = true
  · rw [if_pos hsane] at hlinked ⊢
    obtain ⟨hnew, hover⟩ := hok hsane
    have howed : ((s.received req).owed .uas).find? req.cseq.toNat = none := by
      rw [(received_same s req).2.2.2.2.2.1, eq_none_iff_forall_ne_some]
      intro a ha
      obtain ⟨r, hr, -⟩ := h.counted.uas ha
      rw [hnew] at hr
      exact nomatch hr
    have huac := (received_same s req).2.2.2.2.2.2.2.2
    exact Tallied.of_step ⟨hlinked, h.linked.received.onRequestIn.uac.trans huac⟩
      ((h.counted.received hnew).onRequestIn h.linked.received get_received howed
        (overlaps_received.trans hover))
  · rw [if_neg hsane]
    exact h

theorem Tallied.onRxReply (h : Tallied s)
    (hok : 200 ≤ reply.code ∨ (s.cseqMap .uac).find? reply.cseq.toNat = none) :
    Tallied (s.onRxReply cfg env reply) := by
  have hlinked : Linked (s.onRxReply cfg env reply) := h.linked.onRxReply
  unfold AmSipSubscription.onRxReply at hlinked ⊢
  cases htrans : (s.trans .uac).get reply.cseq with
  | none => exact h
  | some req =>
    rw [htrans] at hlinked
    have hcseq := h.linked.keyed htrans
    have hcounted : AllCounted s.uacOpen (s.onReplyIn cfg env req reply).1 := by
      refine h.counted.onReply h.linked (by rw [hcseq]; exact hok) fun a ha => ?_
      obtain ⟨method, hmethod, hacc⟩ := h.counted.uac ha
      rw [uacOpen, hcseq, htrans] at hmethod
      cases hmethod
      exact hacc
    have hserves : Serves s (s.onReplyIn cfg env req reply).1 := h.linked.onReply
    split_ifs at hlinked ⊢ with hfinal
    · have hnone : ((s.onReplyIn cfg env req reply).1.owed .uac).find? req.cseq.toNat = none :=
        owed_onReply_final hfinal.1 h.linked
      have hremoved : AllCounted s.uacOpen ((s.onReplyIn cfg env req reply).1.setTrans .uac
          (remove ((s.onReplyIn cfg env req reply).1.trans .uac) reply.cseq)) :=
        { hcounted with }
      refine ⟨hlinked, hremoved.of_uac fun {c a} ha => ?_⟩
      have hne : c ≠ reply.cseq := by
        rintro rfl
        rw [show (((s.onReplyIn cfg env req reply).1.setTrans .uac
          (remove ((s.onReplyIn cfg env req reply).1.trans .uac)
            reply.cseq)).owed .uac).find? reply.cseq.toNat = none from hcseq ▸ hnone] at ha
        exact nomatch ha
      rw [uacOpen, trans_setTrans, update_self, get_remove_ne hne, hserves.uac, uacOpen]
    · exact Tallied.of_step hserves hcounted

theorem Tallied.onRequestTxed (h : Tallied s) (hreq : req.cseq = s.cseq)
    (hnew : (s.trans .uac).get s.cseq = none)
    (hnotify : cfg.dialog = true → req.method = .NOTIFY → (s.trans .uas).get s.cseq = none) :
    Tallied (s.onRequestTxed cfg env req) := by
  have hlinked : Linked (s.onRequestTxed cfg env req) := h.linked.onRequestTxed
  have howed : (s.owed .uac).find? req.cseq.toNat = none := by
    rw [eq_none_iff_forall_ne_some]
    intro a ha
    obtain ⟨method, hmethod, -⟩ := h.counted.uac ha
    rw [uacOpen, hreq, hnew] at hmethod
    exact nomatch hmethod
  have hother : ∀ {c a}, (s.owed .uac).find? c.toNat = some a → c ≠ req.cseq := by
    rintro c a ha rfl
    rw [howed] at ha
    exact nomatch ha
  -- the request counts as open before the dialog has stored it
  have hcounted : AllCounted (Function.update s.uacOpen req.cseq (some req.method))
      (s.onRequestSent cfg env req) := by
    refine Counted.onRequestSent (h.counted.of_uac fun ha => ?_) h.linked
      (update_self _ _ _) howed (fun hdlg hm => by rw [hreq]; exact hnotify hdlg hm)
    exact update_of_ne (hother ha) _ _
  have huac : (s.onRequestSent cfg env req).trans .uac = s.trans .uac := h.linked.onRequestSent.uac
  unfold AmSipSubscription.onRequestTxed at hlinked ⊢
  split_ifs at hlinked ⊢ with hack
  · refine ⟨hlinked, Counted.of_uac
      { hcounted with } fun {c a} ha => ?_⟩
    rw [uacOpen]
    rw [trans_setTrans, update_self]
    by_cases hc : c = req.cseq
    · rw [hc, get_set_self, update_self, map_some]
    · rw [get_set_ne hc, huac, update_of_ne hc, uacOpen]
  · refine ⟨hlinked, Counted.of_uac
      { hcounted with } fun {c a} ha => ?_⟩
    have hc : c ≠ req.cseq := hother (owed_onRequestSent_ack h.linked (not_not.1 hack) ha)
    rw [uacOpen, trans_setTrans, update_self, get_remove_ne hc, huac, update_of_ne hc, uacOpen]

theorem Counted.terminate (h : AllCounted u s) : AllCounted u s.terminate := by
  unfold AmSipSubscription.terminate
  generalize s.subs = l
  induction l generalizing s with
  | nil => exact h
  | cons sub l ih => exact ih (h.withObject fun _ => SubCtx.leaves_terminate)

theorem trans_terminate : s.terminate.trans = s.trans := by
  unfold AmSipSubscription.terminate
  generalize s.subs = l
  induction l generalizing s with
  | nil => rfl
  | cons sub l ih => exact ih.trans trans_withObject

theorem Tallied.onTimeout (h : Tallied s) : Tallied (s.onTimeout cfg env p) := by
  have hlinked : Linked (s.onTimeout cfg env p) := h.linked.onTimeout
  have hend : AllCounted s.uacOpen (s.onTimeout cfg env p) ∧
      (s.onTimeout cfg env p).trans .uac = s.trans .uac := by
    unfold AmSipSubscription.onTimeout
    cases hobj : s.object p with
    | none =>
      split_ifs
      · exact ⟨{ h.counted with }, rfl⟩
      · exact ⟨h.counted, rfl⟩
    | some sub =>
      have hterm := h.counted.withObject (p := p) fun _ => SubCtx.leaves_terminate
      have hlterm := h.linked.withObject (p := p) fun _ => SubCtx.leaves_terminate.toKeeps
      obtain ⟨sub', hsub'⟩ := exists_object (s := s.withObject p SubCtx.terminate) (by
        rw [ptrs_withObject fun _ => SubCtx.leaves_terminate.toKeeps]
        exact mem_ptrs_of_object hobj)
      have hremoved : AllCounted s.uacOpen
          ((s.withObject p SubCtx.terminate).removeSubscription env p) :=
        hterm.remove hlterm hsub' (live_of_terminate hobj hsub')
      have huac : ((s.withObject p SubCtx.terminate).removeSubscription env p).trans .uac =
          s.trans .uac := follows_removeSubscription.uac.trans (congrFun trans_withObject _)
      split_ifs
      · exact ⟨{ hremoved with }, huac⟩
      · exact ⟨hremoved, huac⟩
  exact Tallied.of_step ⟨hlinked, hend.2⟩ hend.1

theorem Tallied.step {ev : SubEnv × SubEv} (h : Tallied s) (hok : s.Orderly cfg ev) :
    Tallied (s.step cfg ev) := by
  obtain ⟨env, ev⟩ := ev
  cases ev with
  | rxRequest req toTag retryAfter => exact h.onRxRequest hok
  | rxReply reply => exact h.onRxReply hok
  | sendRequest method hdrs sent =>
    unfold AmSipSubscription.step
    dsimp only
    split_ifs
    · exact h.onRequestTxed rfl hok.1 hok.2
    · exact h
  | reply cseq code hdrs =>
    show Tallied (s.answer cfg env cseq code hdrs)
    unfold answer
    cases htrans : (s.trans .uas).get cseq with
    | none => exact h
    | some req =>
      have hcseq : req.cseq = cseq := h.linked.keyed htrans
      refine Tallied.of_step h.linked.serve_reply
        (counted_reply h.counted h.linked (fun r hr => ?_) (by rw [hcseq]; exact hok))
      rw [hcseq, htrans] at hr
      exact (some.inj hr).symm
  | timeout p => exact h.onTimeout
  | terminate =>
    exact Tallied.of_step ⟨h.linked.terminate, congrFun trans_terminate _⟩ h.counted.terminate
  | subscriptionExists role event id =>
    exact Tallied.of_step { h.linked.findSubscription with } (h.counted.findSubscription h.linked)
  | allowUnsolicitedNotify allow =>
    exact Tallied.of_step ⟨{ h.linked with }, rfl⟩ { h.counted with }

theorem tallied_init {callid remoteTag : Str} {allow : Bool} :
    Tallied (init callid remoteTag cseq allow) :=
  ⟨linked_init, nofun, nofun, nofun, nofun, nofun, nofun, rfl⟩

/-! ## Refusals -/

theorem matchSubscription_of_overlaps (hover : s.overlaps req toTag = true)
    (hmatch : s.matching .Notifier (eventOf req).1 (eventOf req).2 = some sub) :
    req.method = .SUBSCRIBE ∧ sub.live = true ∧ sub.pendingSubscribe ≠ 0 ∧
      s.matchSubscription env req toTag false = (s, some sub.ptr) := by
  simp only [overlaps, hmatch, any_some, Bool.and_eq_true, decide_eq_true_eq,
    Bool.not_eq_true'] at hover
  obtain ⟨⟨hmethod, hnew⟩, hlive, hpend⟩ := hover
  refine ⟨hmethod, hlive, hpend, ?_⟩
  have hrole : roleOf req.method false = some .Notifier := by rw [hmethod]; rfl
  have hfind : s.findSubscription env .Notifier (eventOf req).1 (eventOf req).2 =
      (s, some sub.ptr) := by
    rw [AmSipSubscription.findSubscription, hmatch]
    exact if_neg (of_decide_eq_true hlive)
  rw [AmSipSubscription.matchSubscription, hnew, hrole]
  simp only [hfind, Bool.false_eq_true, if_false, reduceCtorEq, false_and]

/-- The 500 that refuses a SUBSCRIBE goes through `replyFSM`. -/
theorem reply_refused_iff {hdrs : Str} {r : AmSipRequest} (hl : Linked s)
    (hobj : s.object p = some sub) (hreq : req.method = .SUBSCRIBE)
    (hm : (s.cseqMap .uas).find? req.cseq.toNat = some p)
    (htrans : (s.trans .uas).get req.cseq = some r) :
    (∃ sub' ∈ (s.reply cfg env req 500 hdrs).subs, sub'.ptr = p ∧ sub'.state = sub.state ∧
        sub'.pendingSubscribe = sub.pendingSubscribe) ↔ env.sent req.cseq = false := by
  cases hsent : env.sent req.cseq with
  | false =>
    have hsame : s.reply cfg env req 500 hdrs = s := by
      rw [AmSipSubscription.reply, sendReply, htrans, hsent]
      rfl
    rw [hsame]
    exact iff_of_true ⟨sub, (mem_of_object hobj).1, (mem_of_object hobj).2, rfl, rfl⟩ rfl
  | true =>
    have hsubs : (s.reply cfg env req 500 hdrs).subs =
        (s.onReplySent cfg env req (newReply req 500 hdrs)).subs := by
      rw [AmSipSubscription.reply, sendReply, htrans]
      split_ifs <;> rfl
    refine iff_of_false ?_ nofun
    rintro ⟨sub', hsub', hptr, -, hpend⟩
    rw [hsubs, onReplySent, onReply_of_some hm hobj hl.nodup] at hsub'
    split_ifs at hsub' with hterm
    · -- the subscription was waiting for its first NOTIFY and is gone
      have hin := mem_map_of_mem (f := ptr) hsub'
      exact (mem_ptrs_removeSubscription.1 hin).2 hptr
    · have hfound := object_of_mem (serves_replied hl).linked.nodup hsub'
      rw [hptr, object_replied hobj hl.nodup] at hfound
      cases hfound
      have hsubscribes : req.method.subscribes = true := by rw [hreq]; decide
      rw [afterFSM, SubCtx.pending_replyFSM (show 200 ≤ 500 by decide), hsubscribes] at hpend
      simp only [if_true] at hpend
      omega

theorem refused_kept_iff (hl : Linked s) (hsane : s.passesSanity cfg req = true)
    (hover : s.overlaps req toTag = true)
    (hmatch : s.matching .Notifier (eventOf req).1 (eventOf req).2 = some sub) :
    (∃ sub' ∈ (s.onRxRequest cfg env req toTag retryAfter).subs, sub'.ptr = sub.ptr ∧
        sub'.state = sub.state ∧ sub'.pendingSubscribe = sub.pendingSubscribe) ↔
      env.sent req.cseq = false := by
  have hmatch' :
      (s.received req).matching .Notifier (eventOf req).1 (eventOf req).2 = some sub := by
    rw [matching, (received_same s req).1]
    exact hmatch
  obtain ⟨hreq, hlive, hpend, hres⟩ :=
    matchSubscription_of_overlaps (overlaps_received.trans hover) hmatch'
  have hobj := object_of_mem hl.received.nodup (mem_of_find?_eq_some hmatch')
  have hsub : req.method.subscribes = true := by rw [hreq]; decide
  have hrx : s.onRxRequest cfg env req toTag retryAfter =
      ((s.received req).assign .uas req.cseq sub.ptr).reply cfg env req 500 retryAfter := by
    rw [onRxRequest_eq, if_pos hsane, AmSipSubscription.onRequestIn, hres]
    dsimp only
    rw [hobj]
    dsimp only
    rw [if_neg (of_decide_eq_true hlive), subOnRequestIn, if_pos hsub, if_pos hpend]
  have hassign : Linked ((s.received req).assign .uas req.cseq sub.ptr) :=
    hl.received.assign (mem_ptrs_of_object hobj)
  have hm : (((s.received req).assign .uas req.cseq sub.ptr).cseqMap .uas).find? req.cseq.toNat =
      some sub.ptr := by
    unfold AmSipSubscription.assign
    rw [find?_update OrdMap.find?_insert_eq, if_pos ⟨rfl, rfl⟩]
  rw [hrx]
  exact reply_refused_iff hassign hobj hreq hm
    get_received

/-! ## Runs -/

/-- In the runs with the conditions of `Orderly`, `replyFSM` works on the final replies to the
requests of live subscriptions, each once and in their order, and `pending_subscribe` counts the
SUBSCRIBE and REFER requests without one. In every run, refusing a SUBSCRIBE with 500 leaves the
subscription as it was just when the 500 does not go out. -/
theorem subscription_runs (cfg : SubConfig) (callid remoteTag : Str) (cseq : BitVec 32)
    (allow : Bool) (evs : List (SubEnv × SubEv)) :
    let start := init callid remoteTag cseq allow
    let s := runFrom (step cfg) start evs
    (RunOk (step cfg) (Orderly cfg) start evs →
      s.done = s.due ∧ ∀ sub ∈ s.subs, sub.pendingSubscribe = openFor s.owed sub.ptr) ∧
      ∀ env req toTag retryAfter sub, s.passesSanity cfg req = true → s.overlaps req toTag = true →
        s.matching .Notifier (eventOf req).1 (eventOf req).2 = some sub →
        ((∃ sub' ∈ (s.step cfg (env, .rxRequest req toTag retryAfter)).subs,
            sub'.ptr = sub.ptr ∧ sub'.state = sub.state ∧
              sub'.pendingSubscribe = sub.pendingSubscribe) ↔ env.sent req.cseq = false) := by
  intro start s
  refine ⟨fun hok => ?_, fun env req toTag retryAfter sub hsane hover hmatch => ?_⟩
  · have h : Tallied s := RunOk.inv (fun h hev => h.step hev) tallied_init hok
    exact ⟨h.counted.done, fun sub hsub => h.counted.pending sub hsub (mem_map_of_mem hsub)⟩
  · exact refused_kept_iff linked_run hsane hover hmatch

/-- A SUBSCRIBE of the remote party. -/
def subscribeWith (cseq : BitVec 32) : AmSipRequest :=
  ⟨.SUBSCRIBE, cseq, 0, 0, "call".toList, "remote".toList, "Event: presence\r\n".toList,
    AmMimeBody.none⟩

/-- The state of a notifier after some events. -/
def notifierAfter (evs : List (SubEnv × SubEv)) : AmSipSubscription :=
  runFrom (step ⟨false, false⟩) (init [] [] 1 false) evs

/-- A subscription that is accepted, and a SUBSCRIBE that refreshes it and waits for its answer. -/
def refreshedRun : List (SubEnv × SubEv) :=
  [(sendingEnv, .rxRequest (subscribeWith 1) [] []),
    (sendingEnv, .reply 1 200 "Expires: 60\r\n".toList),
    (sendingEnv, .rxRequest (subscribeWith 2) "local".toList [])]

theorem subscription_runs_refreshed :
    RunOk (step ⟨false, false⟩) (Orderly ⟨false, false⟩) (init [] [] 1 false) refreshedRun ∧
      (notifierAfter refreshedRun).done = (notifierAfter refreshedRun).due ∧
      (notifierAfter refreshedRun).subs.map pendingSubscribe = [1] := by
  have hok : RunOk (step ⟨false, false⟩) (Orderly ⟨false, false⟩) (init [] [] 1 false)
      refreshedRun := by
    refine ⟨fun _ => ?_, .inl (by decide), fun _ => ?_, trivial⟩
    · decide
    · decide +kernel
  exact ⟨hok, ((subscription_runs ⟨false, false⟩ [] [] 1 false refreshedRun).1 hok).1,
    by decide +kernel⟩

/-- A SUBSCRIBE with a 100 before its 200. -/
def provisionalRun : List (SubEnv × SubEv) :=
  [(sendingEnv, .rxRequest (subscribeWith 1) [] []), (sendingEnv, .reply 1 100 []),
    (sendingEnv, .reply 1 200 "Expires: 60\r\n".toList)]

/-- After a 100 the 200 to a SUBSCRIBE comes to no subscription, and `pending_subscribe` stays. A
SUBSCRIBE refused while another one is pending ends the subscription. -/
theorem subscription_runs_provisional :
    (notifierAfter provisionalRun).due = [⟨.uas, 1, 0, 200⟩] ∧
      (notifierAfter provisionalRun).done = [] ∧
      ((notifierAfter provisionalRun).owed .uas).entries = [] ∧
      (notifierAfter provisionalRun).subs.map pendingSubscribe = [1] ∧
      (notifierAfter refreshedRun).subs.map pendingSubscribe = [1] ∧
      (notifierAfter (refreshedRun ++
        [(sendingEnv, .rxRequest (subscribeWith 3) "local".toList [])])).subs = [] := by
  decide +kernel

end AmSipSubscription

end Sems
