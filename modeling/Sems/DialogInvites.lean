import Sems.DialogReply
import Sems.DialogWalk

/-!
# The counter of pending INVITEs

`pending_invites` is to be the number of received INVITEs that are not answered yet, and an
INVITE is rejected with 491 while it is not 0. It goes up in `onRxReqSanity`, before the request is
stored in `uas_trans`, and down in `onReplyTxed`, after it was taken out.

`UasState` is the part of a dialog this is about, and `InvitesInv` its invariant, which is kept
under the conditions of `EvOk` (`run_balanced`).
-/

namespace Sems

open List BitVec OrdMap TransMap AmOfferAnswer Option

variable {Sdp : Type*}

/-- The transactions a dialog has received, their counter, and the last CSeq. -/
structure UasState where
  trans : TransMap
  pending : BitVec 32
  rCseqI : Bool
  rCseq : BitVec 32

/-- A final reply to a request was sent. -/
def UasState.answer (u : UasState) (cseq : BitVec 32) (method : SipMethod) : UasState :=
  { u with
    trans := if method = .CANCEL then u.trans else u.trans.remove cseq
    pending := if method = .INVITE then u.pending - 1 else u.pending }

namespace AmSipDialog

def uas (d : AmSipDialog Sdp) : UasState :=
  ⟨d.uasTrans, d.pendingInvites, d.rCseqI, d.rCseq⟩

variable (env : DlgEnv Sdp) (d : AmSipDialog Sdp)

/-! ## What leaves it alone -/

theorem uas_of_trans {d d' : AmSipDialog Sdp} (h : d'.trans = d.trans) : d'.uas = d.uas :=
  congrArg (fun t => UasState.mk t.uasTrans t.pendingInvites t.rCseqI t.rCseq) h

theorem uas_transmit {req : AmSipRequest} : (d.transmit env req).uas = d.uas :=
  OaKept.transmit ⟨fun h htrans _ => (uas_of_trans htrans).trans h⟩
    (fun _ _ h => h) (uas_of_trans (trans_onTxRequest env d req))

/-! ## Replies -/

theorem uas_onReplyTxed (reply : AmSipReply) :
    (d.onReplyTxed env reply).uas =
      if 200 ≤ reply.code then d.uas.answer reply.cseq reply.cseqMethod else d.uas := by
  have hsent : ∀ d : AmSipDialog Sdp,
      (if d.offeranswerEnabled then d.oaOnReplySent env reply else d).uas = d.uas := fun d => by
    split_ifs
    · exact uas_of_trans (trans_oaOnReplySent env d)
    · rfl
  have hcount : ∀ d : AmSipDialog Sdp,
      (if 200 ≤ reply.code ∧ reply.cseqMethod = .INVITE then
        { d with pendingInvites := d.pendingInvites - 1 } else d).uas =
      { d.uas with
        pending := if 200 ≤ reply.code ∧ reply.cseqMethod = .INVITE then d.uas.pending - 1
          else d.uas.pending } := fun d => by
    split_ifs <;> rfl
  unfold onReplyTxed
  rw [hcount, hsent]
  by_cases hc : 200 ≤ reply.code <;> by_cases hm : reply.cseqMethod = .CANCEL
  · simp [hc, hm, UasState.answer]
  · simp [hc, hm, UasState.answer, uas]
  · simp [hc]
  · simp [hc]

/-- A reply leaves it alone, or was a final one. -/
theorem uas_reply (req : AmSipRequest) (code : ℕ) (body : Option AmMimeBody) (hdrs : Str) :
    (d.reply env req code body hdrs).1.uas = d.uas ∨
      (d.reply env req code body hdrs).1.uas = d.uas.answer req.cseq req.method ∧
        (d.uasTrans.get req.cseq).isSome := by
  obtain ⟨⟨rel100, status, heq⟩, hok⟩ := onTxReply_eq env d (d.newReply req code body hdrs)
  have huas : (d.onTxReply env (d.newReply req code body hdrs)).1.uas = d.uas := by
    rw [heq]
    rfl
  unfold reply
  split_ifs with htrans
  · exact .inl rfl
  · generalize d.onTxReply env (d.newReply req code body hdrs) = res at huas hok ⊢
    obtain ⟨d', rp | - | e⟩ := res
    · obtain ⟨body', hdrs', rfl⟩ := hok rfl
      dsimp only
      split_ifs
      · rw [uas_onReplyTxed]
        split_ifs
        · exact .inr ⟨congrArg (UasState.answer · req.cseq req.method) huas, by
            rwa [isSome_iff_ne_none, ne_eq, ← isNone_iff_eq_none]⟩
        · exact .inl huas
      · exact .inl huas
    · exact .inl huas
    · exact .inl huas

end AmSipDialog

/-! ## The invariant -/

/-- `cfg` is `ignore_notify_lower_cseq`. Without it the CSeqs of the entries are not above the
last one. -/
structure InvitesInv (cfg : Bool) (u : UasState) : Prop where
  keys : ∀ e ∈ u.trans.entries, e.1 = e.2.cseq.toInt
  balanced : u.pending.toNat = u.trans.invites.length
  seen : cfg = false → ∀ e ∈ u.trans.entries, u.rCseqI = true ∧ e.2.cseq ≤ u.rCseq

/-- An entry with the CSeq of the request is an INVITE if and only if it is one. A CANCEL has the
CSeq of its INVITE, too. -/
def UasState.Matches (u : UasState) (req : AmSipRequest) : Prop :=
  req.method = .CANCEL ∨ ∀ stored, u.trans.get req.cseq = some stored →
    (stored.method = .INVITE ↔ req.method = .INVITE)

theorem TransMap.length_invites {m : TransMap} :
    m.invites.length = m.countP fun req => req.method = .INVITE := by
  rw [invites, ← countP_eq_length_filter, countP_map]
  rfl

variable {cfg : Bool} {u : UasState} {req : AmSipRequest}

theorem InvitesInv.init {rCseqI : Bool} {rCseq : BitVec 32} :
    InvitesInv cfg ⟨.empty, 0, rCseqI, rCseq⟩ :=
  ⟨fun _ he => absurd he not_mem_nil, rfl, fun _ _ he => absurd he not_mem_nil⟩

variable (h : InvitesInv cfg u)

include h

theorem InvitesInv.get_of_mem_invites (hmem : req ∈ u.trans.invites) :
    u.trans.get req.cseq = some req ∧ req.method = .INVITE := by
  obtain ⟨hin, hm⟩ := mem_filter.1 hmem
  obtain ⟨e, he, rfl⟩ := mem_map.1 hin
  refine ⟨find?_eq_some_iff.2 ?_, by simpa using hm⟩
  rw [← h.keys e he]
  exact he

/-- An answered request takes its entry along. -/
theorem InvitesInv.answer (hm : u.Matches req) (hsome : (u.trans.get req.cseq).isSome) :
    InvitesInv cfg (u.answer req.cseq req.method) := by
  obtain ⟨stored, hget⟩ := isSome_iff_exists.1 hsome
  by_cases hcancel : req.method = .CANCEL
  · simpa [UasState.answer, hcancel] using h
  have hiff := hm.resolve_left hcancel stored hget
  have hcount := countP_erase (p := fun r => decide (r.method = .INVITE)) hget
  have hbal := h.balanced
  rw [length_invites] at hbal
  refine ⟨fun e he => ?_, ?_, fun hcfg e he => ?_⟩
  · simp only [UasState.answer, hcancel, if_false] at he
    exact h.keys e (mem_erase.1 he).1
  · simp only [UasState.answer, hcancel, if_false, length_invites]
    show _ = (u.trans.erase req.cseq.toInt).countP _
    by_cases hinv : req.method = .INVITE
    · rw [if_pos (by simpa using hiff.2 hinv)] at hcount
      rw [if_pos hinv, toNat_sub_of_le (by
        rw [le_def, hbal, hcount]
        exact Nat.le_add_left 1 _), hbal, hcount]
      exact Nat.add_sub_cancel _ 1
    · rw [if_neg (by simpa using fun hs => hinv (hiff.1 hs))] at hcount
      rw [if_neg hinv, hbal, hcount, Nat.add_zero]
  · simp only [UasState.answer, hcancel, if_false] at he
    exact h.seen hcfg e (mem_erase.1 he).1

/-- An entry that is not an INVITE may go without an answer. -/
theorem InvitesInv.remove {stored : AmSipRequest} {cseq : BitVec 32}
    (hget : u.trans.get cseq = some stored) (hinv : stored.method ≠ .INVITE) :
    InvitesInv cfg { u with trans := u.trans.remove cseq } := by
  have hcount := countP_erase (p := fun r => decide (r.method = .INVITE)) hget
  rw [if_neg (by simpa using hinv), Nat.add_zero] at hcount
  refine ⟨fun e he => h.keys e (mem_erase.1 he).1, ?_, fun hf e he =>
    h.seen hf e (mem_erase.1 he).1⟩
  rw [length_invites]
  exact (h.balanced.trans length_invites).trans hcount

/-- A new request is counted and stored. -/
theorem InvitesInv.store (hnew : u.trans.get req.cseq = none)
    (hcseq : u.rCseqI = true ∧ u.rCseq = req.cseq) (hzero : req.method = .INVITE → u.pending = 0) :
    InvitesInv cfg
      { u with
        trans := u.trans.set req.cseq req
        pending := if req.method = .INVITE then u.pending + 1 else u.pending } := by
  have hcount := OrdMap.countP_insert (v := req) (p := fun r => decide (r.method = .INVITE)) hnew
  have hbal := h.balanced
  rw [length_invites] at hbal
  refine ⟨fun e he => ?_, ?_, fun hf e he => ?_⟩
  · rcases OrdMap.mem_insert he with rfl | hmem
    · rfl
    · exact h.keys e hmem
  · rw [length_invites]
    show _ = (u.trans.insert req.cseq.toInt req).countP _
    rw [hcount, ← hbal]
    by_cases hinv : req.method = .INVITE
    · simp [hinv, hzero hinv]
    · simp [hinv]
  · rcases OrdMap.mem_insert he with rfl | hmem
    · exact ⟨hcseq.1, by rw [hcseq.2]; exact BitVec.le_refl _⟩
    · exact h.seen hf e hmem

omit h

/-! ## Each function keeps it -/

namespace AmSipDialog

variable {env : DlgEnv Sdp} {d : AmSipDialog Sdp}

theorem inv_reply (h : InvitesInv cfg d.uas) (hm : d.uas.Matches req) {code : ℕ}
    {body : Option AmMimeBody} {hdrs : Str} :
    InvitesInv cfg (d.reply env req code body hdrs).1.uas := by
  rcases uas_reply env d req code body hdrs with heq | ⟨heq, hsome⟩ <;> rw [heq]
  · exact h
  · exact h.answer hm hsome

theorem inv_keeps : DlgKept env (fun _ => True) fun d => InvitesInv cfg d.uas where
  next h htrans _ := uas_of_trans htrans ▸ h
  invites _ _ _ := trivial
  transmit {d req} _ _ h := uas_transmit env d ▸ h
  terminated {d req} hmem h := by
    obtain ⟨hget, -⟩ := h.get_of_mem_invites hmem
    refine inv_reply h (.inr fun stored hstored => ?_)
    rw [some.inj (hget.symm.trans hstored)]

theorem uas_statusOnRequest (hm : req.method ≠ .CANCEL) :
    (d.statusOnRequest env req).uas = d.uas := by
  unfold statusOnRequest
  cases d.status <;> simp only [hm, if_false] <;> first | rfl | (split_ifs <;> rfl)

theorem inv_onRxReqStatus (h : InvitesInv cfg d.uas)
    (hm : req.method ≠ .ACK → d.uas.Matches req) :
    InvitesInv cfg (d.onRxReqStatus env req).1.uas := by
  have hstatus : InvitesInv cfg (d.statusOnRequest env req).uas :=
    inv_keeps.statusOnRequest h fun hcancel _ _ h => inv_reply h (.inl hcancel)
  have hmatch : req.method ≠ .ACK → (d.statusOnRequest env req).uas.Matches req := fun hack => by
    by_cases hcancel : req.method = .CANCEL
    · exact .inl hcancel
    · rw [uas_statusOnRequest hcancel]
      exact hm hack
  unfold onRxReqStatus
  dsimp only
  split_ifs
  · refine inv_keeps.oaOnRequestIn ?_ (fun hack _ _ _ htrans h => inv_reply h ?_)
      fun _ _ h => inv_keeps.bye [] h
    · rw [uas_of_trans (trans_rxRequestBody env _ req)]
      exact hstatus
    · rw [uas_of_trans htrans]
      exact hmatch hack
  · exact hstatus

/-! ## Received requests -/

/-- 420 or 421. -/
def Rejects100rel (d : AmSipDialog Sdp) (req : AmSipRequest) : Prop :=
  d.rel100.reliable1xx = .require ∧ Am100rel.advertised req = false ∨
    d.rel100.reliable1xx = .disabled ∧ lists100rel (getHeader req.hdrs SIP_HDR_REQUIRE) = true

theorem rel100_onRequestIn (hr : req.method = .INVITE → ¬ d.Rejects100rel req) :
    (d.rel100.onRequestIn req).2 = none := by
  unfold Am100rel.onRequestIn
  by_cases hinv : req.method = .INVITE
  · have hno := not_or.1 (hr hinv)
    cases hst : d.rel100.reliable1xx with
    | supported => split_ifs <;> rfl
    | require =>
      have hadv : Am100rel.advertised req = true := by simpa [hst] using hno.1
      simp only [hinv, hadv, reduceCtorEq, if_false, if_true]
    | disabled =>
      have hlist : lists100rel (getHeader req.hdrs SIP_HDR_REQUIRE) = false := by
        simpa [hst] using hno.2
      simp only [hinv, hlist, reduceCtorEq, Bool.false_eq_true, if_false, if_true]
    | ignored => rfl
  · split_ifs <;> rfl

/-- A request that passes the first checks is an INVITE that 100rel does not reject, or another one,
and with `ignore_notify_lower_cseq` its CSeq is not that of an open transaction. -/
structure RequestOk (cfg : Bool) (env : DlgEnv Sdp) (d : AmSipDialog Sdp) (req : AmSipRequest) :
    Prop where
  accepted : req.method = .INVITE → d.basicSanity env req = true → d.invitePending = false →
    ¬ d.Rejects100rel req
  fresh : cfg = true → req.method ≠ .ACK → req.method ≠ .CANCEL → d.basicSanity env req = true →
    d.uasTrans.get req.cseq = none

/-- Without `ignore_notify_lower_cseq` the CSeq grows. -/
theorem lt_of_basicSanity (hcfg : env.ignoreNotifyLowerCSeq = false)
    (hsane : d.basicSanity env req = true) (hseen : d.rCseqI = true) : d.rCseq < req.cseq := by
  unfold basicSanity at hsane
  split_ifs at hsane with h1 h2
  · simp [hcfg] at hsane
  · exact BitVec.not_le.1 fun hle => h2 ⟨hseen, hle⟩

/-- The next CSeq is recorded. -/
theorem inv_seen (h : InvitesInv cfg d.uas) (hcfg : env.ignoreNotifyLowerCSeq = cfg)
    (hsane : d.basicSanity env req = true) :
    InvitesInv cfg (d.noteCseq req).uas := by
  refine ⟨h.keys, h.balanced, fun hf e he => ⟨rfl, ?_⟩⟩
  obtain ⟨hseen, hle⟩ := h.seen hf e he
  have hlt := lt_of_basicSanity (hcfg.trans hf) hsane hseen
  exact BitVec.le_trans hle (BitVec.le_of_lt hlt)

theorem get_eq_none (h : InvitesInv cfg d.uas) (hcfg : env.ignoreNotifyLowerCSeq = cfg)
    (hsane : d.basicSanity env req = true) (hok : RequestOk cfg env d req)
    (hack : req.method ≠ .ACK) (hcancel : req.method ≠ .CANCEL) :
    d.uasTrans.get req.cseq = none := by
  cases hc : cfg with
  | true => exact hok.fresh hc hack hcancel hsane
  | false =>
    rw [eq_none_iff_forall_ne_some]
    intro stored hget
    have hmem := OrdMap.find?_eq_some_iff.1 hget
    obtain ⟨hseen, hle⟩ := h.seen hc _ hmem
    have hlt := lt_of_basicSanity (hcfg.trans hc) hsane hseen
    have heq := BitVec.eq_of_toInt_eq (h.keys _ hmem)
    rw [heq] at hlt
    exact absurd hle (BitVec.not_le.2 hlt)

theorem onRxReqSanity_passed (hsane : d.basicSanity env req = true)
    (hpend : ¬ (req.method = .INVITE ∧ d.invitePending = true)) :
    (d.onRxReqSanity env req).1.uas =
        ⟨d.uasTrans, if req.method = .INVITE then d.pendingInvites + 1 else d.pendingInvites, true,
          req.cseq⟩ ∧
      (d.onRxReqSanity env req).2 = (d.rel100.onRequestIn req).2.isNone := by
  have hcount : ((d.noteCseq req).countInvite req).uas =
      ⟨d.uasTrans, if req.method = .INVITE then d.pendingInvites + 1 else d.pendingInvites, true,
        req.cseq⟩ ∧ ((d.noteCseq req).countInvite req).rel100 = d.rel100 := by
    unfold countInvite
    split_ifs <;> exact ⟨rfl, rfl⟩
  unfold onRxReqSanity
  rw [if_neg (by simp [hsane]), if_neg hpend]
  exact ⟨hcount.1, by rw [← hcount.2]⟩

theorem inv_onRxRequest (h : InvitesInv cfg d.uas) (hcfg : env.ignoreNotifyLowerCSeq = cfg)
    (hok : RequestOk cfg env d req) : InvitesInv cfg (d.onRxRequest env req).uas := by
  unfold onRxRequest
  split_ifs with hack hcancel hnone
  · exact inv_onRxReqStatus h fun hne => absurd hack hne
  · exact h
  · exact inv_onRxReqStatus h fun _ => .inl hcancel
  by_cases hsane : d.basicSanity env req = false
  · simp only [onRxReqSanity, hsane, if_true]
    exact h
  rw [Bool.not_eq_false] at hsane
  have hseen := inv_seen h hcfg hsane
  by_cases hpend : req.method = .INVITE ∧ d.invitePending = true
  · have heq : d.onRxReqSanity env req = (d.noteCseq req, false) := by
      unfold onRxReqSanity
      rw [if_neg (by simp [hsane]), if_pos hpend]
    rw [heq]
    exact hseen
  have hfree : req.method = .INVITE → d.invitePending = false := fun hinv => by
    simpa using fun hp => hpend ⟨hinv, hp⟩
  have hzero : req.method = .INVITE → d.pendingInvites = 0 := fun hinv => by
    have hno := hfree hinv
    simp only [invitePending, Bool.or_eq_false_iff, bne_eq_false_iff_eq] at hno
    exact hno.1.1
  have hnew := get_eq_none h hcfg hsane hok hack hcancel
  have hstored := hseen.store hnew ⟨rfl, rfl⟩ hzero
  obtain ⟨huas, hpass⟩ := onRxReqSanity_passed hsane hpend
  rw [rel100_onRequestIn fun hinv => hok.accepted hinv hsane (hfree hinv)] at hpass
  generalize d.onRxReqSanity env req = res at huas hpass ⊢
  obtain ⟨d1, passed⟩ := res
  obtain rfl : passed = true := hpass
  -- what comes before `onRxReqStatus` is the new entry and the identification of the dialog
  have hd2 : ∀ d2 : AmSipDialog Sdp,
      d2.uas = { d1.uas with trans := d1.uas.trans.set req.cseq req } →
      InvitesInv cfg (d2.onRxReqStatus env req).1.uas := by
    intro d2 heq
    rw [huas] at heq
    refine inv_onRxReqStatus (by rw [heq]; exact hstored) fun _ => .inr fun stored hget => ?_
    rw [heq] at hget
    rw [some.inj (find?_insert.symm.trans hget)]
  dsimp only
  split_ifs
  · exact hd2 _ rfl
  · exact hd2 _ rfl

/-! ## The end -/

/-- The 481 to an INVITE is sent. -/
def Sends481 (env : DlgEnv Sdp) : Prop :=
  ∀ rp : AmSipReply, rp.code = 481 → rp.cseqMethod = .INVITE → env.sendsReply rp = true

theorem uas_reply_481 (hs : Sends481 env) (hget : (d.uasTrans.get req.cseq).isSome)
    (hinv : req.method = .INVITE) :
    (d.reply env req 481 none []).1.uas = d.uas.answer req.cseq req.method := by
  obtain ⟨⟨rel100, status, heq⟩, hok⟩ := onTxReply_eq env d (d.newReply req 481 none [])
  obtain ⟨rp, hrp⟩ := onTxReply_final env d (d.newReply req 481 none []) rfl (by simp [newReply])
  obtain ⟨body, hdrs, rfl⟩ := hok hrp
  have huas : (d.onTxReply env (d.newReply req 481 none [])).1.uas = d.uas := by
    rw [heq]
    rfl
  unfold reply
  rw [if_neg (by rwa [isNone_iff_eq_none, ← ne_eq, ← isSome_iff_ne_none])]
  generalize d.onTxReply env (d.newReply req 481 none []) = res at huas hrp ⊢
  obtain ⟨d', res⟩ := res
  obtain rfl : res = _ := hrp
  dsimp only
  rw [if_pos (hs _ rfl hinv), uas_onReplyTxed, huas]
  rfl

/-- One round of the loop of `termUasTrans`. -/
theorem inv_termRound (h : InvitesInv cfg d.uas)
    (hget : d.uas.trans.get req.cseq = some req)
    (hs : req.method = .INVITE → Sends481 env) :
    InvitesInv cfg { (d.reply env req 481 none []).1.uas with
        trans := (d.reply env req 481 none []).1.uas.trans.erase req.cseq.toInt } ∧
      (req.method ≠ .INVITE → (d.reply env req 481 none []).1.uas.pending = d.uas.pending) := by
  by_cases hinv : req.method = .INVITE
  · have hsome := isSome_iff_exists.2 ⟨req, hget⟩
    rw [uas_reply_481 (hs hinv) hsome hinv]
    refine ⟨?_, fun hne => absurd hinv hne⟩
    have hans := h.answer (.inr fun stored hst => by
      rw [some.inj (hget.symm.trans hst)]) hsome
    simp only [UasState.answer, hinv, reduceCtorEq, if_false, if_true] at hans ⊢
    rwa [remove, erase_erase]
  · have hrem := h.remove hget hinv
    rcases uas_reply env d req 481 none [] with heq | ⟨heq, -⟩
    · rw [heq]
      exact ⟨hrem, fun _ => rfl⟩
    · simp only [heq, UasState.answer, hinv, if_false]
      refine ⟨?_, fun _ => trivial⟩
      split_ifs
      · exact hrem
      · rwa [remove, erase_erase]

theorem pending_ne_zero (h : InvitesInv cfg u) (hget : u.trans.get req.cseq = some req)
    (hinv : req.method = .INVITE) : u.pending ≠ 0 := by
  intro hzero
  have hbal := h.balanced
  have hcount := countP_erase (p := fun r => decide (r.method = .INVITE)) hget
  rw [if_pos (by simpa using hinv)] at hcount
  rw [length_invites, hcount, hzero] at hbal
  simp at hbal

theorem inv_termUasLoop (env : DlgEnv Sdp) :
    ∀ (k : ℕ) {d : AmSipDialog Sdp}, InvitesInv cfg d.uas → (d.uas.pending ≠ 0 → Sends481 env) →
      InvitesInv cfg (termUasLoop env k d).uas
  | 0, _, h, _ => h
  | k + 1, d, h, hs => by
    unfold termUasLoop
    cases hent : d.uasTrans.entries with
    | nil => exact h
    | cons e rest =>
      obtain ⟨key, req⟩ := e
      have hmem : (key, req) ∈ d.uas.trans.entries := by
        show _ ∈ d.uasTrans.entries
        simp [hent]
      obtain rfl : key = req.cseq.toInt := h.keys _ hmem
      have hget := find?_eq_some_iff.2 hmem
      obtain ⟨hround, hpending⟩ := inv_termRound h hget fun hinv =>
        hs (pending_ne_zero h hget hinv)
      refine inv_termUasLoop env k hround fun hne => ?_
      by_cases hinv : req.method = .INVITE
      · exact hs (pending_ne_zero h hget hinv)
      · exact hs (hpending hinv ▸ hne)

/-! ## Runs -/

/-- The conditions on a call. A reply is for a request the dialog has received. -/
def EvOk (cfg : Bool) (env : DlgEnv Sdp) (d : AmSipDialog Sdp) : DlgEv → Prop
  | .rxRequest req => RequestOk cfg env d req
  | .reply req _ _ _ => d.uas.Matches req
  | .finalize => d.uasTrans.invites ≠ [] → Sends481 env
  | .dropTransactions => d.uasTrans.invites = []
  | _ => True

/-- Every call of the run meets its conditions, and the configuration stays. -/
def RunOk (cfg : Bool) (d : AmSipDialog Sdp) : List (DlgEnv Sdp × DlgEv) → Prop
  | [] => True
  | (env, ev) :: evs =>
    env.ignoreNotifyLowerCSeq = cfg ∧ EvOk cfg env d ev ∧ RunOk cfg (d.step env ev) evs

theorem inv_step (h : InvitesInv cfg d.uas) (hcfg : env.ignoreNotifyLowerCSeq = cfg) (ev : DlgEv)
    (hok : EvOk cfg env d ev) : InvitesInv cfg (d.step env ev).uas := by
  refine inv_keeps.step h (fun _ _ _ => uas_transmit env d ▸ h) ?_
  cases ev with
  | rxRequest req => exact inv_onRxRequest h hcfg hok
  | rxReply reply =>
    exact inv_keeps.onRxReply reply (fun _ => trivial) (fun _ _ _ h => h) h fun h => h
  | reply req code body hdrs => exact inv_reply h hok
  | bye hdrs => exact inv_keeps.bye hdrs h
  | finalize =>
    refine inv_termUasLoop env d.uasTrans.entries.length h fun hne => hok fun hnil => hne ?_
    have hbal := h.balanced
    rw [show d.uas.trans.invites = [] from hnil] at hbal
    exact eq_of_toNat_eq hbal
  | dropTransactions =>
    have hbal := h.balanced
    rw [show d.uas.trans.invites = [] from hok] at hbal
    exact ⟨fun _ he => absurd he not_mem_nil, hbal, fun _ _ he => absurd he not_mem_nil⟩
  | _ => trivial

theorem inv_run : ∀ (evs : List (DlgEnv Sdp × DlgEv)) {d : AmSipDialog Sdp},
    InvitesInv cfg d.uas → RunOk cfg d evs → InvitesInv cfg (d.run evs).uas
  | [], _, h, _ => h
  | (_, ev) :: evs, _, h, ⟨hcfg, hok, hrest⟩ => inv_run evs (inv_step h hcfg ev hok) hrest

/-- In every run whose calls meet the conditions, `pending_invites` is the number of received
INVITEs that are open, so that it blocks an INVITE only while there is one. -/
theorem run_balanced (sdp : SdpOps Sdp) (localTag : Str) (cseq : BitVec 32) (rel100 : Rel100State)
    (oaEnabled : Bool) (evs : List (DlgEnv Sdp × DlgEv))
    (hok : RunOk cfg (init sdp localTag cseq rel100 oaEnabled) evs) :
    ((init sdp localTag cseq rel100 oaEnabled).run evs).pendingInvites.toNat =
        ((init sdp localTag cseq rel100 oaEnabled).run evs).uasTrans.invites.length ∧
      (((init sdp localTag cseq rel100 oaEnabled).run evs).pendingInvites ≠ 0 →
        ((init sdp localTag cseq rel100 oaEnabled).run evs).uasTrans.invites ≠ []) := by
  have hinv := inv_run evs InvitesInv.init hok
  refine ⟨hinv.balanced, fun hne hnil => hne (eq_of_toNat_eq ?_)⟩
  exact hinv.balanced.trans (congrArg List.length hnil)

/-- An INVITE is received and declined. -/
def inviteDeclined : List (DlgEnv (List Str) × DlgEv) :=
  [(quietEnv, .rxRequest relInvite), (quietEnv, .reply relInvite 486 none [])]

theorem run_balanced_declined :
    let d := init mediaLines "l".toList 10 .supported true
    (d.run (inviteDeclined.take 1)).uasTrans.invites ≠ [] ∧
      (d.run inviteDeclined).pendingInvites.toNat = (d.run inviteDeclined).uasTrans.invites.length ∧
      (d.run inviteDeclined).pendingInvites = 0 := by
  intro d
  have hreq : EvOk false quietEnv d (.rxRequest relInvite) := by
    refine ⟨fun _ _ _ hrej => ?_, fun h => nomatch h⟩
    rcases hrej with ⟨h, -⟩ | ⟨h, -⟩ <;> exact nomatch h
  have hreply : EvOk false quietEnv (d.step quietEnv (.rxRequest relInvite))
      (.reply relInvite 486 none []) := by
    refine .inr ?_
    rintro stored ⟨⟩
    exact Iff.rfl
  have hone : RunOk false d (inviteDeclined.take 1) := ⟨rfl, hreq, trivial⟩
  have hok : RunOk false d inviteDeclined := ⟨rfl, hreq, rfl, hreply, trivial⟩
  exact ⟨(run_balanced mediaLines "l".toList 10 .supported true _ hone).2 (by decide),
    (run_balanced mediaLines "l".toList 10 .supported true _ hok).1, by decide⟩

/-- A dialog without 100rel rejects the INVITE with 420 after it was counted. -/
theorem run_not_balanced_420 :
    ¬ ∀ (rel100 : Rel100State) (evs : List (DlgEnv (List Str) × DlgEv)),
      ((init mediaLines "l".toList 10 rel100 true).run evs).pendingInvites.toNat =
        ((init mediaLines "l".toList 10 rel100 true).run
          evs).uasTrans.invites.length := by
  intro h
  exact absurd (h .disabled [(quietEnv, .rxRequest relInvite)]) (by decide)

end AmSipDialog

end Sems
