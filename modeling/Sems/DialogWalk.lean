import Sems.DialogRequest

/-!
# What the calls of a dialog are made of

Beside its own transactions and counters, a call changes a dialog in few ways : the offer/answer
engine is cleared, the status and the tags change, a BYE or an ACK without a body goes out, an open
INVITE gets 487. `DlgKept env own P` says that these keep the property `P` of dialogs, and with it
so do the functions they are used in; `own` are the CSeqs of the ACKs.
-/

namespace Sems

variable {Sdp : Type*}

/-- The request that a call from outside sends. -/
def AmSipDialog.sentRequest (d : AmSipDialog Sdp) : DlgEv → Option AmSipRequest
  | .sendRequest method body hdrs => some (d.newRequest method body hdrs 0)
  | .prack reply1xx body hdrs => some (d.newRequest .PRACK body hdrs reply1xx.cseq)
  | .send200Ack invCseq body =>
    some
      { method := .ACK, cseq := invCseq, rseq := 0, rackCseq := 0, callid := d.callid,
        fromTag := [], hdrs := [], body := (body.map AmMimeBody.copy).getD .none }
  | _ => none

/-- What the engine may become while no message is sent and none is received. -/
inductive OaNext (env : DlgEnv Sdp) (oa : AmOfferAnswer Sdp) : AmOfferAnswer Sdp → Prop
  | same : OaNext env oa oa
  | clear : OaNext env oa (oa.clear env.sdp)
  | clearTransitional : OaNext env oa (oa.clearTransitionalState env.sdp)

/-- The changes of the engine and of what is not in `trans` keep the property. -/
structure OaKept (env : DlgEnv Sdp) (P : AmSipDialog Sdp → Prop) : Prop where
  next : ∀ {d d'}, P d → d'.trans = d.trans → OaNext env d.oa d'.oa → P d'

/-- So do the messages that the dialog sends on its own, the ACKs with CSeqs of `own`. -/
structure DlgKept (env : DlgEnv Sdp) (own : BitVec 32 → Prop) (P : AmSipDialog Sdp → Prop) : Prop
    extends OaKept env P where
  invites : ∀ {d}, P d → ∀ req ∈ d.uacTrans.invites, own req.cseq
  transmit : ∀ {d req}, req.body = .none →
    (req.method = .BYE ∧ req.cseq = d.cseq ∨ req.method = .ACK ∧ own req.cseq) → P d →
    P (d.transmit env req)
  terminated : ∀ {d req}, req ∈ d.uasTrans.invites → P d → P (d.reply env req 487 none []).1

open AmSipDialog

variable {env : DlgEnv Sdp} {P : AmSipDialog Sdp → Prop} {d d' : AmSipDialog Sdp}
  {req : AmSipRequest}

namespace OaKept

variable (k : OaKept env P)

include k

theorem same (h : P d) (htrans : d'.trans = d.trans) (hoa : d'.oa = d.oa) : P d' :=
  k.next h htrans (hoa ▸ .same)

theorem onSdpCompleted (h : P d) : P (d.onSdpCompleted env).1 := by
  unfold AmSipDialog.onSdpCompleted
  split
  · exact k.same h rfl rfl
  · split_ifs
    · exact k.next h rfl .clear
    · exact k.same h rfl rfl

theorem checkStateChange (h : P d) : P (d.checkStateChange env).1 := by
  unfold AmSipDialog.checkStateChange
  split_ifs
  · exact k.onSdpCompleted h
  · exact h

theorem clearOa (cseq : BitVec 32) (h : P d) : P (d.clearOa env cseq) := by
  unfold AmSipDialog.clearOa
  split_ifs
  · exact k.next h rfl .clearTransitional
  · exact h

/-- A property that is not about the requests that are answered. -/
theorem reply {code : ℕ} {body : Option AmMimeBody} {hdrs : Str}
    (hanswer : ∀ {d : AmSipDialog Sdp} (trans : TransMap) (pending : BitVec 32), P d →
      P { d with uasTrans := trans, pendingInvites := pending })
    (h : P d) (htx : P (d.onTxReply env (d.newReply req code body hdrs)).1) :
    P (d.reply env req code body hdrs).1 := by
  have hremove : ∀ (c : Prop) [Decidable c] (d : AmSipDialog Sdp) (trans : TransMap), P d →
      P (if c then { d with uasTrans := trans } else d) := fun c _ d trans h => by
    split_ifs
    · exact hanswer trans d.pendingInvites h
    · exact h
  have hcount : ∀ (c : Prop) [Decidable c] (d : AmSipDialog Sdp) (pending : BitVec 32), P d →
      P (if c then { d with pendingInvites := pending } else d) := fun c _ d pending h => by
    split_ifs
    · exact hanswer d.uasTrans pending h
    · exact h
  have hsent : ∀ (d : AmSipDialog Sdp) (rp : AmSipReply), P d →
      P (if d.offeranswerEnabled then d.oaOnReplySent env rp else d) := fun d rp h => by
    unfold oaOnReplySent
    split_ifs
    · exact k.clearOa _ (k.checkStateChange h)
    · exact k.checkStateChange h
    · exact h
  unfold AmSipDialog.reply
  split_ifs
  · exact h
  generalize d.onTxReply env (d.newReply req code body hdrs) = res at htx ⊢
  obtain ⟨d', rp | - | e⟩ := res
  · dsimp only
    split_ifs
    · exact hcount _ _ _ (hsent _ rp (hremove _ _ _ htx))
    · exact htx
  · exact htx
  · exact htx

/-- A property that is not about the requests that are open. -/
theorem transmit
    (hsend : ∀ {d : AmSipDialog Sdp} (trans : TransMap) (cseq : BitVec 32), P d →
      P { d with uacTrans := trans, cseq := cseq })
    (htx : P (d.onTxRequest env req).1) : P (d.transmit env req) := by
  have hstore : ∀ (d : AmSipDialog Sdp) (req : AmSipRequest), P d →
      P (if req.method ≠ .ACK then
        { d with uacTrans := TransMap.set d.uacTrans req.cseq req, cseq := d.cseq + 1 }
        else { d with uacTrans := TransMap.remove d.uacTrans req.cseq }) := fun d req h => by
    split_ifs
    · exact hsend _ _ h
    · exact hsend _ d.cseq h
  have hsent : ∀ (d : AmSipDialog Sdp) (req : AmSipRequest), P d →
      P (if d.offeranswerEnabled then d.oaOnRequestSent env req else d) := fun d req h => by
    unfold oaOnRequestSent
    split_ifs
    · exact k.clearOa _ (k.checkStateChange h)
    · exact k.checkStateChange h
    · exact h
  unfold AmSipDialog.transmit
  generalize d.onTxRequest env req = res at htx ⊢
  obtain ⟨d', req' | - | -⟩ := res
  · dsimp only
    split_ifs
    · exact hsent _ _ (hstore d' req' htx)
    · exact htx
  · exact htx
  · exact htx

/-! ## Received requests -/

omit k in
theorem code_rxRequestBody {err : OaError} (h : (d.rxRequestBody env req).2 = some err) :
    300 ≤ err.code := by
  have hread : ∀ {old body err}, (AmOfferAnswer.readSdp env.sdp old body).2 = some err →
      err.code = 400 := fun {old body err} h => by
    unfold AmOfferAnswer.readSdp at h
    grind [AmOfferAnswer.errNoSdp, AmOfferAnswer.errParse, AmOfferAnswer.errNoMedia]
  have hcode : err.code = 400 := by
    unfold rxRequestBody AmOfferAnswer.onRxSdp at h
    grind [AmOfferAnswer.errPending, errContentType]
  exact hcode ▸ by decide

theorem oaOnRequestIn (hbody : P ({ d with oa := d.oa.saveState }.rxRequestBody env req).1)
    (hreply : req.method ≠ .ACK → ∀ {d' : AmSipDialog Sdp} {code : ℕ}, 300 ≤ code →
      d'.trans = d.trans → P d' → P (d'.reply env req code none []).1)
    (hbye : req.method = .ACK → ∀ {d' : AmSipDialog Sdp}, P d' → P (d'.bye env [])) :
    P (d.oaOnRequestIn env req).1 := by
  have htrans := trans_rxRequestBody env { d with oa := d.oa.saveState } req
  have hcode : ∀ err, ({ d with oa := d.oa.saveState }.rxRequestBody env req).2 = some err →
      300 ≤ err.code := fun _ => code_rxRequestBody
  unfold AmSipDialog.oaOnRequestIn
  generalize { d with oa := d.oa.saveState }.rxRequestBody env req = res at hbody htrans hcode ⊢
  obtain ⟨d1, err⟩ := res
  have hcheck := k.checkStateChange hbody
  have htrans := (trans_checkStateChange env d1).trans htrans
  dsimp only
  generalize d1.checkStateChange env = res at hcheck htrans ⊢
  obtain ⟨d2, failed⟩ := res
  have hclear : ∀ d' : AmSipDialog Sdp, P d' →
      P (if req.method = .ACK then d'.clearOa env req.cseq else d') := fun d' h => by
    split_ifs
    · exact k.clearOa _ h
    · exact h
  refine hclear _ ?_
  split
  · exact hcheck
  · split_ifs with hack
    · refine hreply hack ?_ htrans hcheck
      next herr =>
        split_ifs at herr
        · cases herr
          decide
        · exact hcode _ herr
    · exact hbye (not_not.1 hack) hcheck

theorem statusOnRequest (h : P d)
    (hcancel : req.method = .CANCEL → ∀ {d' : AmSipDialog Sdp}, d'.trans = d.trans → P d' →
      P (d'.reply env req 200 none []).1) : P (d.statusOnRequest env req) := by
  have hstatus : ∀ st, P (d.setStatus st) := fun st => k.same h rfl rfl
  unfold AmSipDialog.statusOnRequest
  split
  all_goals try split_ifs
  all_goals first | exact h | exact hstatus _ | exact hcancel ‹_› rfl (hstatus _)

theorem cancel (h : P d) : P d.cancel := by
  unfold AmSipDialog.cancel
  split_ifs
  · exact k.same h rfl rfl
  · exact h

/-- What is left to the property is the messages, `bye` and the end of the transactions. -/
theorem step {ev : DlgEv} (h : P d)
    (hsent : ∀ req, d.sentRequest ev = some req → (req.method ≠ .ACK → req.cseq = d.cseq) →
      P (d.transmit env req))
    (hev : match ev with
      | .rxRequest _ | .rxReply _ | .reply .. | .bye _ | .finalize | .dropTransactions =>
        P (d.step env ev)
      | _ => True) : P (d.step env ev) := by
  cases ev with
  | rxRequest | rxReply | reply | bye | finalize | dropTransactions => exact hev
  | sendRequest method body hdrs => exact hsent _ rfl fun _ => rfl
  | prack reply1xx body hdrs =>
    unfold AmSipDialog.step
    dsimp only
    split_ifs
    · exact h
    · exact hsent _ rfl fun _ => rfl
  | send200Ack invCseq body =>
    unfold AmSipDialog.step AmSipDialog.send200Ack
    dsimp only
    split_ifs
    · exact h
    · exact hsent _ rfl fun hack => absurd rfl hack
  | cancel => exact k.cancel h
  | noAck cseq =>
    unfold AmSipDialog.step
    dsimp only
    split_ifs
    · exact k.clearOa _ h
    · exact h

end OaKept

/-! ## What the dialog does on its own -/

namespace DlgKept

variable {own : BitVec 32 → Prop} (k : DlgKept env own P)

include k

theorem sendBye (hdrs : Str) (h : P d) : P (d.sendRequest env .BYE none hdrs 0) :=
  k.transmit rfl (.inl ⟨rfl, rfl⟩) h

theorem send200Ack {invCseq : BitVec 32} (hown : own invCseq) (h : P d) :
    P (d.send200Ack env invCseq none) := by
  unfold AmSipDialog.send200Ack
  split_ifs
  · exact h
  · exact k.transmit rfl (.inr ⟨rfl, hown⟩) h

theorem ackAll : ∀ (reqs : List AmSipRequest) {d : AmSipDialog Sdp}, (∀ req ∈ reqs, own req.cseq) →
    P d → P (reqs.foldl (fun d req => d.send200Ack env req.cseq none) d)
  | [], _, _, h => h
  | _ :: reqs, _, hown, h =>
    ackAll reqs (fun req hmem => hown req (.tail _ hmem)) (k.send200Ack (hown _ (.head _)) h)

theorem replyTerminated (h : P d) : P (d.replyTerminated env) := by
  unfold AmSipDialog.replyTerminated
  split
  case h_1 req reqs hinv => exact k.terminated (by simp [hinv]) h
  case h_2 => exact k.same h rfl rfl

theorem bye (hdrs : Str) (h : P d) : P (d.bye env hdrs) := by
  have hack := k.ackAll _ (k.invites h) h
  unfold AmSipDialog.bye
  split
  · exact hack
  · dsimp only
    split_ifs
    · exact k.sendBye _ (k.same hack rfl rfl)
    · exact hack
  · exact k.replyTerminated h
  · exact h
  · split_ifs
    · exact k.cancel h
    · exact k.replyTerminated h

/-! ## Received replies -/

variable (reply : AmSipReply)

include reply

theorem oaOnReplyIn (h : P d)
    (hrx : (reply.body.hasContentType SIP_APPLICATION_SDP).isSome ∨
      AmOfferAnswer.hasCsta reply.body →
      P { d with oa := (d.oa.saveState.onRxSdp env.sdp (replyMsg reply true) reply.body).1 }) :
    P (d.oaOnReplyIn env reply) := by
  unfold AmSipDialog.oaOnReplyIn
  split_ifs with _ hbody
  · exact k.next h rfl .clearTransitional
  · exact k.onSdpCompleted h
  · exact h
  · have hcheck := k.checkStateChange (hrx hbody.2.2)
    dsimp only
    split_ifs
    · exact k.bye [] hcheck
    · exact hcheck
  · exact h

theorem onInvite2xxIn (hown : own reply.cseq) (ack : Bool) (h : P d) :
    P (d.onInvite2xxIn env reply ack) := by
  have hstatus : P (d.setStatus .Connected) := k.same h rfl rfl
  unfold AmSipDialog.onInvite2xxIn
  split_ifs
  · exact k.sendBye _ (k.send200Ack hown hstatus)
  · exact k.sendBye _ hstatus
  · exact k.same h rfl rfl

theorem inviteReplyStatus (hown : own reply.cseq) (h : P d) :
    P (d.inviteReplyStatus env reply) := by
  unfold AmSipDialog.inviteReplyStatus
  split <;> try split_ifs
  all_goals first
    | exact k.onInvite2xxIn reply hown _ h
    | exact k.bye [] (k.same h rfl rfl)
    | exact k.same h rfl rfl

theorem rel100OnReplyIn (h : P d) : P (d.rel100OnReplyIn env reply) := by
  unfold AmSipDialog.rel100OnReplyIn
  dsimp only
  split_ifs
  · exact k.bye [] (k.same h rfl rfl)
  · exact k.same h rfl rfl

variable (hown : reply.cseqMethod = .INVITE → own reply.cseq)
  (hrx : (reply.body.hasContentType SIP_APPLICATION_SDP).isSome ∨ AmOfferAnswer.hasCsta reply.body →
    ∀ {d' : AmSipDialog Sdp}, (reply.cseqMethod ≠ .INVITE → d'.oa = d.oa) → P d' → P { d' with
      oa := (d'.oa.saveState.onRxSdp env.sdp (replyMsg reply true) reply.body).1 })

include hown hrx

theorem onRxReplyStatus (h : P d) : P (d.onRxReplyStatus env reply) := by
  have hinvite : P (if reply.cseqMethod = .INVITE then d.inviteReplyStatus env reply else d) ∧
      (reply.cseqMethod ≠ .INVITE →
        (if reply.cseqMethod = .INVITE then d.inviteReplyStatus env reply else d).oa = d.oa) := by
    split_ifs with hinv
    · exact ⟨k.inviteReplyStatus reply (hown hinv) h, (absurd hinv ·)⟩
    · exact ⟨h, fun _ => rfl⟩
  have hend : ∀ d : AmSipDialog Sdp, (d.endReplyStatus reply).oa = d.oa := fun d => by
    unfold endReplyStatus
    dsimp only
    split_ifs <;> rfl
  refine k.rel100OnReplyIn reply ?_
  generalize (if reply.cseqMethod = .INVITE then d.inviteReplyStatus env reply else d) = d1
    at hinvite ⊢
  have h1 := k.same hinvite.1 (trans_endReplyStatus d1) (hend d1)
  split_ifs
  · exact k.oaOnReplyIn reply h1 fun hbody =>
      hrx hbody (fun hinv => (hend d1).trans (hinvite.2 hinv)) h1
  · exact h1

theorem onRxReply (h : P d)
    (hclose : ∀ {d : AmSipDialog Sdp}, P d →
      P { d with uacTrans := d.uacTrans.remove reply.cseq }) : P (d.onRxReply env reply) := by
  have hstatus := k.onRxReplyStatus reply hown hrx h
  unfold AmSipDialog.onRxReply
  split_ifs
  · exact h
  · exact h
  · exact hclose hstatus
  · exact hstatus

end DlgKept

end Sems
