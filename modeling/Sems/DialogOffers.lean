import Sems.DialogClient

/-!
# Offers and their answers

While an offer is pending, what goes the other way completes the exchange, whatever message it is
in. Here the changes of the state of the engine (`AmOfferAnswer.trace`) are compared with the rule
that an answer belongs to the transaction of the offer, or is the PRACK for it (`OaMsg.Answers`).

`EvFits` is the condition on a call and the messages it brings or sends, and `HistOk` is what the
engine keeps. `run_answersOnly` is the main result, for the runs in which each session description
fits the pending offer. A received INVITE does not cross our own offer, since it gets 491.
-/

namespace Sems

open List AmOfferAnswer Option

variable {Sdp : Type*}

/-! ## Answers -/

namespace OaMsg

/-- The transaction of a message : whether it is ours, and its CSeq. -/
def transaction (m : OaMsg) : Bool × BitVec 32 :=
  (m.received == m.isReply, m.cseq)

/-- A PRACK for a reply. -/
def Acknowledges (m offer : OaMsg) : Prop :=
  m.method = .PRACK ∧ m.isReply = false ∧ offer.isReply = true ∧ m.rack = some offer.cseq

/-- The message goes the other way, in the transaction of the offer or in the PRACK for it. An ACK
has the CSeq of its INVITE. -/
def Answers (m offer : OaMsg) : Prop :=
  m.received ≠ offer.received ∧ (m.transaction = offer.transaction ∨ m.Acknowledges offer)

/-- A received INVITE. -/
def IsInviteIn (m : OaMsg) : Prop :=
  m.received = true ∧ m.isReply = false ∧ m.method = .INVITE

instance (m : OaMsg) : Decidable m.IsInviteIn :=
  inferInstanceAs (Decidable (_ ∧ _))

instance (m offer : OaMsg) : Decidable (m.Acknowledges offer) :=
  inferInstanceAs (Decidable (_ ∧ _))

end OaMsg

variable (trace : List OaChange)

/-- The message with the offer that is pending after some changes. -/
def pendingOffer : Option OaMsg :=
  match trace.getLast? with
  | some ⟨_, .offerSent, msg⟩ => msg
  | some ⟨_, .offerRecved, msg⟩ => msg
  | _ => none

/-- The exchange is completed only by an answer, received in `offerSent` and sent in `offerRecved`.
-/
def AnswersOnly : Prop :=
  ∀ pre c post, trace = pre ++ c :: post → c.after = .completed →
    ∃ m offer, c.msg = some m ∧ pendingOffer pre = some offer ∧ m.Answers offer ∧
      (c.before = .offerSent ∧ m.received = true ∨ c.before = .offerRecved ∧ m.received = false)

/-- While an offer is pending, what goes the other way belongs to it, or is a received INVITE. -/
def OaMsg.Fits (m : OaMsg) (oa : AmOfferAnswer Sdp) : Prop :=
  ∀ offer ∈ pendingOffer oa.trace, m.received ≠ offer.received →
    m.IsInviteIn ∨ m.transaction = offer.transaction ∨ m.Acknowledges offer

instance OaMsg.decidableFits {m : OaMsg} {oa : AmOfferAnswer Sdp} : Decidable (m.Fits oa) :=
  inferInstanceAs (Decidable (∀ offer ∈ pendingOffer oa.trace, _))

/-! ## The messages of a call -/

/-- The handler has no answer to any offer. -/
def DlgEnv.Declines (env : DlgEnv Sdp) : Prop :=
  ∀ h ∈ env.hdl, ∀ remote own, (h.getSdpAnswer remote own).1 = false

namespace AmSipDialog

/-- The message with a session description, or one for CSTA, that a call brings or sends. -/
def sdpMsg (env : DlgEnv Sdp) (d : AmSipDialog Sdp) : DlgEv → Option OaMsg
  | .rxRequest req =>
    if (req.body.hasContentType SIP_APPLICATION_SDP).isSome then some (requestMsg req true)
    else none
  | .rxReply reply =>
    if (reply.body.hasContentType SIP_APPLICATION_SDP).isSome ∨ hasCsta reply.body then
      some (replyMsg reply true)
    else none
  | .reply req code body hdrs =>
    let reply := d.newReply req code body hdrs
    if d.oa.handsOver env.hdl reply then some (replyMsg reply false) else none
  | ev => ((d.sentRequest ev).filter d.oa.requestTaken).map (requestMsg · false)

/-- The CSeqs of the ACKs that the dialog may send on its own while the call runs. -/
def ownAcks (d : AmSipDialog Sdp) : DlgEv → List (BitVec 32)
  | .rxRequest req => if req.method = .ACK then d.uacTrans.invites.map (·.cseq) else []
  | .rxReply reply =>
    (if reply.cseqMethod = .INVITE then [reply.cseq] else []) ++ d.uacTrans.invites.map (·.cseq)
  | .bye _ => d.uacTrans.invites.map (·.cseq)
  | _ => []

/-- The message of the call fits the pending offer. So does an ACK the dialog sends on its own : the
handler has no answer for it, or a received offer, also one of this call, is in the transaction of
its INVITE. -/
structure EvFits (env : DlgEnv Sdp) (d : AmSipDialog Sdp) (ev : DlgEv) : Prop where
  msg : ∀ m ∈ d.sdpMsg env ev, m.Fits d.oa
  acks : env.Declines ∨ ∀ cseq ∈ d.ownAcks ev,
    (∀ offer ∈ pendingOffer d.oa.trace, offer.received → offer.transaction = (true, cseq)) ∧
      ∀ offer ∈ d.sdpMsg env ev, offer.received → offer.method = .INVITE ∨ d.oa.state ≠ .offerSent →
        offer.transaction = (true, cseq)

/-- So it is at each call of the run. -/
def RunFits (d : AmSipDialog Sdp) : List (DlgEnv Sdp × DlgEv) → Prop
  | [] => True
  | (env, ev) :: evs => EvFits env d ev ∧ RunFits (d.step env ev) evs

end AmSipDialog

/-! ## The engine -/

variable {trace} {ok : OaMsg → Prop} {oa : AmOfferAnswer Sdp} {sdp : SdpOps Sdp} {m : OaMsg}

/-- The state in which a message of this direction is the answer. -/
def awaiting (received : Bool) : OAState :=
  if received then .offerSent else .offerRecved

/-- The exchanges so far, and the pending offer. -/
structure HistOk (ok : OaMsg → Prop) (oa : AmOfferAnswer Sdp) : Prop where
  answers : AnswersOnly oa.trace
  dir : ∀ r, oa.state = awaiting r → ∃ offer, pendingOffer oa.trace = some offer ∧
    offer.received = !r
  pending : ∀ offer, pendingOffer oa.trace = some offer → ok offer

/-- The message fits, and may be pending if it is an offer. -/
structure OaMsg.Admitted (ok : OaMsg → Prop) (oa : AmOfferAnswer Sdp) (m : OaMsg) : Prop where
  fits : m.Fits oa
  offer : oa.state ≠ awaiting m.received → ok m

theorem pendingOffer_concat (c : OaChange) :
    pendingOffer (trace ++ [c]) =
      if c.after = .offerSent ∨ c.after = .offerRecved then c.msg else none := by
  obtain ⟨before, after, msg⟩ := c
  cases after <;> simp [pendingOffer]

theorem AnswersOnly.concat (h : AnswersOnly trace) {c : OaChange}
    (hc : c.after = .completed → ∃ m offer, c.msg = some m ∧ pendingOffer trace = some offer ∧
      m.Answers offer ∧ c.before = awaiting m.received) :
    AnswersOnly (trace ++ [c]) := by
  intro pre c' post hsplit hafter
  rcases eq_nil_or_concat post with rfl | ⟨post', last, rfl⟩
  · obtain ⟨rfl, heq⟩ := append_inj' hsplit rfl
    obtain rfl := singleton_inj.1 heq
    obtain ⟨m, offer, hm, hoffer, hans, hst⟩ := hc hafter
    refine ⟨m, offer, hm, hoffer, hans, ?_⟩
    rw [hst]
    cases m.received <;> simp [awaiting]
  · have hsplit' : trace ++ [c] = (pre ++ c' :: post') ++ [last] := by simpa using hsplit
    exact h pre c' post' (append_inj' hsplit' rfl).1 hafter

theorem histOk_init : HistOk ok (init sdp) where
  answers pre c post h := by simp [init] at h
  dir r h := by cases r <;> cases h
  pending offer h := by cases h

variable (h : HistOk ok oa)

include h

/-- A change that leaves no offer pending. -/
theorem HistOk.setState {st : OAState} {msg : Option OaMsg} (hst : ∀ r, st ≠ awaiting r)
    (hc : st = .completed → ∃ m offer, msg = some m ∧ pendingOffer oa.trace = some offer ∧
      m.Answers offer ∧ oa.state = awaiting m.received) :
    HistOk ok (oa.setState st msg) := by
  refine ⟨h.answers.concat hc, fun r hr => absurd hr (hst r), fun offer ho => ?_⟩
  have hno : ¬ (st = .offerSent ∨ st = .offerRecved) := not_or.2 ⟨hst true, hst false⟩
  rw [AmOfferAnswer.setState, pendingOffer_concat, if_neg hno] at ho
  cases ho

theorem HistOk.clear : HistOk ok (oa.clear sdp) := by
  have hset : HistOk ok (oa.setState .none none) :=
    h.setState (by decide) fun hdone => by cases hdone
  exact { hset with }

theorem HistOk.clearTransitionalState : HistOk ok (oa.clearTransitionalState sdp) := by
  unfold AmOfferAnswer.clearTransitionalState
  split_ifs
  · exact h.clear
  · exact h

theorem HistOk.offer {st : OAState} (hst : st = awaiting !m.received) (hok : ok m) :
    HistOk ok { oa.setState st (some m) with cseq := m.cseq } := by
  have hpending : pendingOffer (oa.trace ++ [⟨oa.state, st, some m⟩]) = some m := by
    rw [pendingOffer_concat, hst]
    cases m.received <;> rfl
  refine ⟨h.answers.concat fun hdone => ?_, fun r hr => ⟨m, hpending, ?_⟩, fun offer ho => ?_⟩
  · rw [hst] at hdone
    cases hr : m.received <;> simp [hr, awaiting] at hdone
  · have hr := hst.symm.trans hr
    revert hr
    cases m.received <;> cases r <;> decide
  · obtain rfl := some.inj (hpending.symm.trans ho)
    exact hok

theorem HistOk.complete (hfits : m.Fits oa) (hinv : ¬ m.IsInviteIn)
    (hst : oa.state = awaiting m.received) : HistOk ok (oa.setState .completed (some m)) := by
  obtain ⟨offer, hoffer, hdir⟩ := h.dir _ hst
  have hne : m.received ≠ offer.received := by simp [hdir]
  exact h.setState (by decide) fun _ => ⟨m, offer, rfl, hoffer,
    ⟨hne, (hfits offer hoffer hne).resolve_left hinv⟩, hst⟩

theorem HistOk.onRxSdp (hm : m.received = true) (hinv : m.IsInviteIn → oa.state ≠ .offerSent)
    (had : m.Admitted ok oa) (body : AmMimeBody) : HistOk ok (oa.onRxSdp sdp m body).1 := by
  unfold AmOfferAnswer.onRxSdp
  obtain ⟨remote, _ | err⟩ := readSdp sdp oa.sdpRemote body
  · have h' : HistOk ok { oa with sdpRemote := remote } := { h with }
    have hoffer : OAState.offerRecved = awaiting !m.received := by rw [hm]; rfl
    dsimp only
    split
    · next hst => exact h'.offer hoffer (had.offer (by simp [hst, hm, awaiting]))
    · next hst => exact h'.offer hoffer (had.offer (by simp [hst, hm, awaiting]))
    · next hst => exact h'.complete had.fits (fun hin => hinv hin hst) (by simp [hst, hm, awaiting])
    · exact h'
  · exact { h with }

variable (hm : m.received = false)

include hm

theorem HistOk.onTxSdp (had : m.Admitted ok oa) (body : AmMimeBody) :
    HistOk ok (oa.onTxSdp m body).1 := by
  have hoffer : OAState.offerSent = awaiting !m.received := by rw [hm]; rfl
  unfold AmOfferAnswer.onTxSdp
  split_ifs
  · exact h
  · cases hst : oa.state with
    | none | completed => exact h.offer hoffer (had.offer (by simp [hst, hm, awaiting]))
    | offerRecved =>
      exact h.complete had.fits (fun hin => by simp [OaMsg.IsInviteIn, hm] at hin)
        (by simp [hst, hm, awaiting])
    | offerSent => exact h

theorem HistOk.finishReply {reply : AmSipReply} {has : Bool}
    (had : (has || decide (reply.cseqMethod ≠ .INFO) && hasCsta reply.body) = true →
      m.Admitted ok oa) : HistOk ok (oa.finishReply sdp m reply has).1 := by
  unfold AmOfferAnswer.finishReply
  dsimp only
  split_ifs with hands
  · exact h.onTxSdp hm (had hands) _
  · exact (h.onTxSdp hm (had hands) _).clearTransitionalState
  · exact h.onTxSdp hm (had hands) _
  · exact h
  · exact h.clearTransitionalState
  · exact h

theorem HistOk.finishRequest {req : AmSipRequest} {has : Bool}
    (had : (has || hasCsta req.body && decide (req.method ≠ .INFO)) = true → m.Admitted ok oa) :
    HistOk ok (oa.finishRequest m req has).1 := by
  unfold AmOfferAnswer.finishRequest
  split_ifs with hands
  · have hres := h.onTxSdp hm (had hands) req.body
    generalize oa.onTxSdp m req.body = res at hres ⊢
    obtain ⟨oa', _ | _⟩ := res <;> exact hres
  · exact h

variable {hdl : Option (SdpHandler Sdp)}

theorem HistOk.onReplyOut {reply : AmSipReply}
    (had : oa.handsOver hdl reply = true → m.Admitted ok oa) :
    HistOk ok (oa.onReplyOut sdp hdl m reply).1 := by
  have hprep : HistOk ok (oa.prepared sdp hdl reply) := { h with }
  have hadm : oa.handsOver hdl reply = true → m.Admitted ok (oa.prepared sdp hdl reply) :=
    fun hands => { had hands with }
  cases hl : oa.lacksSdp hdl reply with
  | true =>
    rw [onReplyOut_lacksSdp hl]
    exact hprep
  | false =>
    cases hg : oa.generated hdl reply with
    | true =>
      obtain ⟨body, -, heq⟩ := onReplyOut_generated hg hl
      rw [heq]
      exact hprep.finishReply hm fun _ => hadm (by simp [handsOver, hg])
    | false =>
      rw [onReplyOut_given hg hl]
      exact hprep.finishReply hm fun hands => hadm (by rwa [handsOver, hg, Bool.false_or])

theorem HistOk.onRequestOut {req : AmSipRequest}
    (had : oa.requestTaken req = true → ¬ oa.RefusesRequest hdl req → m.Admitted ok oa) :
    HistOk ok (oa.onRequestOut sdp hdl m req).1 := by
  have hprep : HistOk ok (oa.requestPrepared sdp hdl req) := { h with }
  by_cases hr : oa.RefusesRequest hdl req
  · rw [onRequestOut_refuses hr]
    exact hprep
  have hadm : oa.requestTaken req = true → m.Admitted ok (oa.requestPrepared sdp hdl req) :=
    fun htaken => { had htaken hr with }
  cases ha : oa.asksFor req with
  | true =>
    have hok : (askHandler hdl oa).1 = true := by
      rw [← Bool.not_eq_false]
      exact fun hno => hr (.inl ⟨ha, hno⟩)
    by_cases hc : oa.CrashesOn hdl req
    · rw [onRequestOut_crashes sdp m hc]
      exact hprep
    · obtain ⟨body, -, heq⟩ := onRequestOut_generated sdp m ha hok hc
      rw [heq]
      exact hprep.finishRequest hm fun _ => hadm (requestTaken_of_asked ha)
  | false =>
    rw [onRequestOut_given ha]
    exact hprep.finishRequest hm fun hands => hadm ((requestTaken_of_not_asked ha).trans hands)

omit h hm

/-- The condition on pending offers may be exchanged. -/
theorem HistOk.mono {ok' : OaMsg → Prop} (h : HistOk ok oa)
    (hok : ∀ offer, pendingOffer oa.trace = some offer → ok' offer) : HistOk ok' oa :=
  { h with pending := hok }

/-! ## The dialog -/

theorem TransMap.mem_invites {trans : TransMap} {req : AmSipRequest} :
    req ∈ trans.invites ↔ (∃ key, (key, req) ∈ trans.entries) ∧ req.method = .INVITE := by
  simp [invites]

namespace AmSipDialog

variable {env : DlgEnv Sdp} {d : AmSipDialog Sdp} {own : BitVec 32 → Prop} {req : AmSipRequest}

theorem acks_set {trans : TransMap} {cseq : BitVec 32} (h : ∀ r ∈ trans.invites, own r.cseq)
    (hreq : req.method ≠ .INVITE) : ∀ r ∈ (trans.set cseq req).invites, own r.cseq := by
  intro r hr
  obtain ⟨⟨key, hmem⟩, hm⟩ := TransMap.mem_invites.1 hr
  rcases OrdMap.mem_insert hmem with heq | hmem
  · obtain ⟨-, rfl⟩ := Prod.mk.inj heq
    exact absurd hm hreq
  · exact h r (TransMap.mem_invites.2 ⟨⟨key, hmem⟩, hm⟩)

theorem acks_remove {trans : TransMap} {cseq : BitVec 32} (h : ∀ r ∈ trans.invites, own r.cseq) :
    ∀ r ∈ (trans.remove cseq).invites, own r.cseq := by
  intro r hr
  obtain ⟨⟨key, hmem⟩, hm⟩ := TransMap.mem_invites.1 hr
  exact h r (TransMap.mem_invites.2 ⟨⟨key, (OrdMap.mem_erase.1 hmem).1⟩, hm⟩)

/-- The engine, and the open INVITEs of the client side. -/
structure Kept (ok : OaMsg → Prop) (own : BitVec 32 → Prop) (d : AmSipDialog Sdp) : Prop where
  hist : HistOk ok d.oa
  acks : ∀ req ∈ d.uacTrans.invites, own req.cseq

theorem hist_next : OaKept env fun d => HistOk ok d.oa where
  next {d d'} h _ hnext := by
    generalize d'.oa = oa' at hnext ⊢
    cases hnext with
    | same => exact h
    | clear => exact h.clear
    | clearTransitional => exact h.clearTransitionalState

theorem kept_next : OaKept env (@Kept Sdp ok own) where
  next {d d'} h htrans hnext := by
    have huac : d'.uacTrans = d.uacTrans := congrArg Transactions.uacTrans htrans
    exact ⟨hist_next.next h.hist htrans hnext, huac ▸ h.acks⟩

theorem kept_reply (h : Kept ok own d) {code : ℕ} {body : Option AmMimeBody} {hdrs : Str}
    (had : d.oa.handsOver env.hdl (d.newReply req code body hdrs) = true →
      (replyMsg (d.newReply req code body hdrs) false).Admitted ok d.oa) :
    Kept ok own (d.reply env req code body hdrs).1 := by
  refine kept_next.reply (fun _ _ h => ⟨h.hist, h.acks⟩) h ?_
  have hout : HistOk ok (d.oaOnReplyOut env (d.newReply req code body hdrs)).1.oa := by
    unfold oaOnReplyOut
    split_ifs
    · exact h.hist.onReplyOut rfl had
    · exact h.hist
  obtain ⟨⟨rel100, status, heq⟩, -⟩ := onTxReply_eq env d (d.newReply req code body hdrs)
  rw [heq]
  exact ⟨hout, h.acks⟩

/-- The replies that the dialog gives on its own have no body, and need none. -/
theorem kept_ownReply (h : Kept ok own d) {code : ℕ} (hcode : 300 ≤ code ∨ req.method = .CANCEL) :
    Kept ok own (d.reply env req code none []).1 := by
  have hquiet : d.oa.handsOver env.hdl (d.newReply req code none []) = false :=
    (handsOver_quiet env.hdl d.oa rfl hcode).2
  exact kept_reply h fun hands => absurd (hquiet.symm.trans hands) Bool.false_ne_true

theorem hist_transmit (h : HistOk ok d.oa)
    (had : d.oa.requestTaken req = true → ¬ d.oa.RefusesRequest env.hdl req →
      (requestMsg req false).Admitted ok d.oa) :
    HistOk ok (d.transmit env req).oa := by
  obtain ⟨hdrs, hreq⟩ := d.rel100.onRequestOut_eq req
  have hout : HistOk ok (d.oaOnRequestOut env { req with hdrs := hdrs }).1.oa := by
    unfold oaOnRequestOut
    split_ifs
    · exact h.onRequestOut rfl had
    · exact h
  refine hist_next.transmit (fun _ _ h => h) ?_
  rw [onTxRequest, hreq]
  generalize d.oaOnRequestOut env { req with hdrs := hdrs } = res at hout ⊢
  obtain ⟨d', req' | - | -⟩ := res
  · dsimp only
    split_ifs <;> exact hout
  · exact hout
  · exact hout

/-- What is not an INVITE opens none. -/
theorem acks_transmit (hreq : req.method ≠ .INVITE) (h : ∀ r ∈ d.uacTrans.invites, own r.cseq) :
    ∀ r ∈ (d.transmit env req).uacTrans.invites, own r.cseq := by
  have hframe : (d.onTxRequest env req).1.uacTrans = d.uacTrans :=
    congrArg Transactions.uacTrans (trans_onTxRequest env d req)
  unfold transmit
  cases hres : d.onTxRequest env req with
  | mk d' res =>
    rw [hres] at hframe
    rw [← hframe] at h
    cases res with
    | ok req' =>
      obtain ⟨hm, -⟩ := onTxRequest_ok hres
      have htxed : (d'.onRequestTxed env req').uacTrans = if req'.method ≠ .ACK then
          TransMap.set d'.uacTrans req'.cseq req' else TransMap.remove d'.uacTrans req'.cseq := by
        have htrans := congrArg Transactions.uacTrans (trans_onRequestTxed env d' req')
        split_ifs at htrans ⊢ <;> exact htrans
      dsimp only
      split_ifs
      · rw [htxed]
        split_ifs
        · exact acks_set h (hm ▸ hreq)
        · exact acks_remove h
      · exact h
    | refused | crashed => exact h

variable (hown : ∀ offer, ok offer → offer.received = true →
    env.Declines ∨ ∀ cseq, own cseq → offer.transaction = (true, cseq))

include hown

/-- A request of the dialog itself hands over no more than the answer in an ACK. -/
theorem ownRequest_admitted (h : HistOk ok d.oa) (hbody : req.body = .none)
    (hreq : req.method = .BYE ∧ req.cseq = d.cseq ∨ req.method = .ACK ∧ own req.cseq)
    (htaken : d.oa.requestTaken req = true) (hno : ¬ d.oa.RefusesRequest env.hdl req) :
    (requestMsg req false).Admitted ok d.oa := by
  have hsdp : req.body.hasContentType SIP_APPLICATION_SDP = none := hbody ▸ rfl
  have hcsta : hasCsta req.body = false := hbody ▸ rfl
  have hdue : d.oa.answerDue req = true := by simpa [requestTaken, hsdp, hcsta] using htaken
  obtain ⟨hm, hst⟩ : (req.method = .PRACK ∨ req.method = .ACK) ∧ d.oa.state = .offerRecved := by
    simpa [answerDue, hcsta] using hdue
  obtain ⟨offer, hoffer, hdir⟩ := h.dir false hst
  refine ⟨fun offer' ho _ => .inr (.inl ?_), (absurd hst ·)⟩
  obtain rfl := some.inj (hoffer.symm.trans ho)
  rcases hown offer (h.pending offer hoffer) hdir with hdec | hown
  · refine absurd (.inl ⟨by simpa [asksFor, hsdp] using hdue, ?_⟩) hno
    cases hh : env.hdl with
    | none => rfl
    | some hdl => simpa [askHandler, hst] using hdec hdl hh _ _
  · rcases hreq with ⟨hbye, -⟩ | ⟨-, hcseq⟩
    · simp [hbye] at hm
    · exact (hown _ hcseq).symm

theorem kept_keeps : DlgKept env own (@Kept Sdp ok own) where
  toOaKept := kept_next
  invites h := h.acks
  transmit hbody hreq h := by
    refine ⟨hist_transmit h.hist (ownRequest_admitted hown h.hist hbody hreq),
      acks_transmit ?_ h.acks⟩
    rcases hreq with ⟨hm, -⟩ | ⟨hm, -⟩ <;> simp [hm]
  terminated _ h := kept_ownReply h (.inl (by decide))

omit hown

/-! ## Received requests -/

theorem kept_rxRequestBody (h : Kept ok own d)
    (hinv : req.method = .INVITE → d.oa.state ≠ .offerSent)
    (had : req.method ≠ .CANCEL → (req.body.hasContentType SIP_APPLICATION_SDP).isSome →
      (requestMsg req true).Admitted ok d.oa) :
    Kept ok own (d.rxRequestBody env req).1 := by
  rw [rxRequestBody]
  by_cases hbody : (req.method = .INVITE ∨ req.method = .UPDATE ∨ req.method = .ACK ∨
      req.method = .PRACK) ∧ req.body.empty = false
  · have hcancel : req.method ≠ .CANCEL := fun hc => by simp [hc] at hbody
    rw [if_pos hbody]
    split
    · next part hp =>
      have had := had hcancel (by simp [hp])
      exact ⟨h.hist.onRxSdp rfl (fun hin => hinv hin.2.2) had part, h.acks⟩
    · split_ifs <;> exact h
  · rw [if_neg hbody]
    exact h

/-- Apart from the reply to a CANCEL, the status is all that changes. -/
theorem oa_statusOnRequest (env : DlgEnv Sdp) (d : AmSipDialog Sdp) (hm : req.method ≠ .CANCEL) :
    (d.statusOnRequest env req).oa = d.oa ∧
      (d.statusOnRequest env req).offeranswerEnabled = d.offeranswerEnabled := by
  unfold statusOnRequest
  cases d.status with
  | Disconnected | Connected | Trying | Proceeding | Early => split_ifs <;> exact ⟨rfl, rfl⟩
  | Cancelling | Disconnecting => exact ⟨rfl, rfl⟩

variable (hbye : req.method = .ACK → ∀ {d' : AmSipDialog Sdp}, Kept ok own d' →
  Kept ok own (d'.bye env []))

include hbye

theorem kept_onRxReqStatus (h : Kept ok own d)
    (hinv : req.method = .INVITE → d.offeranswerEnabled = true → d.oa.state ≠ .offerSent)
    (had : (req.body.hasContentType SIP_APPLICATION_SDP).isSome →
      (requestMsg req true).Admitted ok d.oa) : Kept ok own (d.onRxReqStatus env req).1 := by
  have hstatus : Kept ok own (d.statusOnRequest env req) :=
    kept_next.statusOnRequest h fun hcancel _ _ h => kept_ownReply h (.inr hcancel)
  unfold onRxReqStatus
  dsimp only
  split_ifs with hen
  · refine kept_next.oaOnRequestIn (kept_rxRequestBody ⟨{ hstatus.hist with }, hstatus.acks⟩ ?_ ?_)
      (fun _ _ _ hcode _ h => kept_ownReply h (.inl hcode)) hbye
    · intro hm
      obtain ⟨hoa, hen'⟩ := oa_statusOnRequest env d (show req.method ≠ .CANCEL by simp [hm])
      rw [saveState, hoa]
      exact hinv hm (hen' ▸ hen)
    · intro hcancel hbody
      rw [(oa_statusOnRequest env d hcancel).1]
      exact { had hbody with }
  · exact hstatus

omit hbye in
/-- An INVITE that passes the checks finds no offer of ours pending. -/
theorem onRxReqSanity_frame (env : DlgEnv Sdp) (d : AmSipDialog Sdp) (req : AmSipRequest) :
    (d.onRxReqSanity env req).1.oa = d.oa ∧
      (d.onRxReqSanity env req).1.uacTrans = d.uacTrans ∧
      ((d.onRxReqSanity env req).2 = true → req.method = .INVITE →
        (d.onRxReqSanity env req).1.offeranswerEnabled = true → d.oa.state ≠ .offerSent) := by
  unfold onRxReqSanity countInvite
  split_ifs with hsane hpend hinv
  · exact ⟨rfl, rfl, fun h => by cases h⟩
  · exact ⟨rfl, rfl, fun h => by cases h⟩
  · refine ⟨rfl, rfl, fun _ hm hen hst => hpend ⟨hm, ?_⟩⟩
    have hen : d.offeranswerEnabled = true := hen
    simp [invitePending, hen, hst]
  · exact ⟨rfl, rfl, fun _ hm => absurd hm hinv⟩

theorem kept_onRxRequest (h : Kept ok own d)
    (had : (req.body.hasContentType SIP_APPLICATION_SDP).isSome →
      (requestMsg req true).Admitted ok d.oa) : Kept ok own (d.onRxRequest env req) := by
  unfold onRxRequest
  split_ifs with hack hcancel hnone
  · exact kept_onRxReqStatus hbye h (fun hm => absurd (hack.symm.trans hm) (by simp)) had
  · exact h
  · exact kept_onRxReqStatus hbye h (fun hm => absurd (hcancel.symm.trans hm) (by simp)) had
  · obtain ⟨hoa, huac, hinv⟩ := onRxReqSanity_frame env d req
    cases hres : d.onRxReqSanity env req with
    | mk d1 passed =>
      rw [hres] at hoa huac hinv
      have h1 : Kept ok own d1 := ⟨hoa ▸ h.hist, huac ▸ h.acks⟩
      cases passed with
      | false => exact h1
      | true =>
        have hinv := hinv rfl
        rw [← hoa] at hinv had
        dsimp only
        split_ifs <;> exact kept_onRxReqStatus hbye ⟨h1.hist, h1.acks⟩ hinv had

omit hbye

/-! ## Runs -/

theorem hist_termUasLoop :
    ∀ (k : ℕ) {d : AmSipDialog Sdp}, HistOk ok d.oa → HistOk ok (termUasLoop env k d).oa
  | 0, _, h => h
  | k + 1, d, h => by
    unfold termUasLoop
    cases d.uasTrans.entries with
    | nil => exact h
    | cons e rest =>
      have hkept : Kept ok (fun _ => True) d := ⟨h, fun _ _ => trivial⟩
      exact hist_termUasLoop k (kept_ownReply hkept (.inl (by decide))).hist

variable {ev : DlgEv}

/-- What may be pending while a call runs : a received offer that the ACKs fit, or our old one. -/
def MayPend (env : DlgEnv Sdp) (d : AmSipDialog Sdp) (ev : DlgEv) (offer : OaMsg) : Prop :=
  if offer.received then
    env.Declines ∨ ∀ cseq, cseq ∈ d.ownAcks ev → offer.transaction = (true, cseq)
  else pendingOffer d.oa.trace = some offer

theorem kept_ownAcks (h : HistOk ok d.oa) (hev : EvFits env d ev)
    (hacks : ∀ req ∈ d.uacTrans.invites, req.cseq ∈ d.ownAcks ev) :
    Kept (d.MayPend env ev) (· ∈ d.ownAcks ev) d := by
  refine ⟨h.mono fun offer ho => ?_, hacks⟩
  unfold MayPend
  split_ifs with hr
  · exact hev.acks.imp_right fun hall cseq hmem => (hall cseq hmem).1 offer ho hr
  · exact ho

theorem mayPend_keeps :
    DlgKept env (· ∈ d.ownAcks ev) (@Kept Sdp (d.MayPend env ev) (· ∈ d.ownAcks ev)) :=
  kept_keeps fun offer hok hr => by rwa [MayPend, if_pos hr] at hok

/-- The message of the call may become the pending offer. -/
theorem mayPend_msg (hev : EvFits env d ev) {m : OaMsg} (hm : d.sdpMsg env ev = some m)
    (hr : m.received = true) (hst : m.method = .INVITE ∨ d.oa.state ≠ .offerSent) :
    d.MayPend env ev m := by
  rw [MayPend, if_pos hr]
  exact hev.acks.imp_right fun hall cseq hmem => (hall cseq hmem).2 m hm hr hst

theorem hist_rxRequest (h : HistOk ok d.oa) (hok : ∀ m, ok m)
    (hev : EvFits env d (.rxRequest req)) : HistOk ok (d.onRxRequest env req).oa := by
  by_cases hack : req.method = .ACK
  · have hkept := kept_ownAcks h hev fun r hr => by
      rw [ownAcks, if_pos hack]
      exact mem_map_of_mem hr
    have hres := kept_onRxRequest (fun _ _ h => mayPend_keeps.bye [] h) hkept fun hbody =>
      ⟨hev.msg _ (if_pos hbody), fun hst => mayPend_msg hev (if_pos hbody) rfl (.inr hst)⟩
    exact hres.hist.mono fun m _ => hok m
  · have hkept : Kept ok (fun _ => True) d := ⟨h, fun _ _ => trivial⟩
    exact (kept_onRxRequest (absurd · hack) hkept fun hbody =>
      ⟨hev.msg _ (if_pos hbody), fun _ => hok _⟩).hist

theorem hist_rxReply (h : HistOk ok d.oa) (hok : ∀ m, ok m) {reply : AmSipReply}
    (hev : EvFits env d (.rxReply reply)) : HistOk ok (d.onRxReply env reply).oa := by
  have hkept := kept_ownAcks h hev fun r hr => mem_append_right _ (mem_map_of_mem hr)
  have hres := mayPend_keeps.onRxReply reply (fun hinv => by simp [ownAcks, hinv])
    (fun hbody d' hoa h => ?_) hkept fun h => ⟨h.hist, acks_remove h.acks⟩
  · exact hres.hist.mono fun m _ => hok m
  · have hsave : HistOk (d.MayPend env (.rxReply reply)) d'.oa.saveState := { h.hist with }
    refine ⟨hsave.onRxSdp rfl (fun hin => absurd hin.2.1 (by simp [replyMsg])) ⟨?_, ?_⟩ _, h.acks⟩
    · intro offer ho hne
      have hpend := h.hist.pending offer ho
      rw [MayPend, if_neg fun hr => hne hr.symm] at hpend
      exact hev.msg _ (if_pos hbody) offer hpend hne
    · intro hst
      refine mayPend_msg hev (if_pos hbody) rfl ?_
      by_cases hinv : reply.cseqMethod = .INVITE
      · exact .inl hinv
      · exact .inr (hoa hinv ▸ hst)

theorem hist_step (h : HistOk ok d.oa) (hok : ∀ m, ok m) (hev : EvFits env d ev) :
    HistOk ok (d.step env ev).oa := by
  have hkept : Kept ok (fun _ => True) d := ⟨h, fun _ _ => trivial⟩
  refine hist_next.step h (fun req hreq _ => hist_transmit h fun htaken _ =>
    ⟨?_, fun _ => hok _⟩) ?_
  · refine hev.msg _ ?_
    cases ev <;> simp_all [sdpMsg, sentRequest]
  · cases ev with
    | rxRequest req => exact hist_rxRequest h hok hev
    | rxReply reply => exact hist_rxReply h hok hev
    | reply req code body hdrs =>
      exact (kept_reply hkept fun hands => ⟨hev.msg _ (if_pos hands), fun _ => hok _⟩).hist
    | bye hdrs =>
      have hkept := kept_ownAcks h hev fun r hr => mem_map_of_mem hr
      exact (mayPend_keeps.bye hdrs hkept).hist.mono fun m _ => hok m
    | finalize => exact hist_termUasLoop d.uasTrans.entries.length h
    | dropTransactions => exact h
    | _ => trivial

theorem hist_run (hok : ∀ m, ok m) : ∀ (evs : List (DlgEnv Sdp × DlgEv)) {d : AmSipDialog Sdp},
    HistOk ok d.oa → RunFits d evs → HistOk ok (d.run evs).oa
  | [], _, h, _ => h
  | _ :: evs, _, h, ⟨hev, hrest⟩ => hist_run hok evs (hist_step h hok hev) hrest

/-- In every run where each session description fits the offer that is pending when it comes, an
exchange is completed only by the answer to its offer. -/
theorem run_answersOnly (sdp : SdpOps Sdp) (localTag : Str) (cseq : BitVec 32)
    (rel100 : Rel100State) (oaEnabled : Bool) (evs : List (DlgEnv Sdp × DlgEv))
    (hfits : RunFits (init sdp localTag cseq rel100 oaEnabled) evs) :
    AnswersOnly ((init sdp localTag cseq rel100 oaEnabled).run evs).oa.trace := by
  have hinit : HistOk (fun _ => True) (init sdp localTag cseq rel100 oaEnabled).oa := histOk_init
  exact (hist_run (fun _ => trivial) evs hinit hfits).answers

/-- A dialog that has sent an INVITE with an offer. -/
def calling (evs : List (DlgEnv (List Str) × DlgEv)) : AmSipDialog (List Str) :=
  (init mediaLines "l".toList 10 .disabled true).run
    ((quietEnv, .sendRequest .INVITE (some audioBody) []) :: evs)

/-- The 200 with the answer. -/
def answer200 : AmSipReply where
  code := 200
  cseqMethod := .INVITE
  cseq := 10
  rseq := 0
  toTag := "t".toList
  hdrs := []
  body := audioBody

/-- An UPDATE of the peer with its own offer. -/
def crossingUpdate : AmSipRequest where
  method := .UPDATE
  cseq := 5
  rseq := 0
  rackCseq := 0
  callid := "c".toList
  fromTag := "t".toList
  hdrs := []
  body := audioBody

/-- The handler answers an offer with the description it has received. -/
def answeringEnv : DlgEnv (List Str) :=
  { quietEnv with hdl := some ⟨fun own => (false, own), fun remote _ => (true, remote),
    fun _ _ => false⟩ }

/-- The call with an exchange in each direction. -/
def answered : List (DlgEnv (List Str) × DlgEv) :=
  [(answeringEnv, .rxReply answer200), (answeringEnv, .send200Ack 10 none),
    (answeringEnv, .rxRequest crossingUpdate), (answeringEnv, .reply crossingUpdate 200 none [])]

theorem run_answersOnly_200 :
    (calling answered).oa.trace.map OaChange.after =
        [.offerSent, .completed, .offerRecved, .completed] ∧
      AnswersOnly (calling answered).oa.trace := by
  have hreply : EvFits answeringEnv (calling []) (.rxReply answer200) := by
    refine ⟨by decide, .inr fun cseq hmem => ?_⟩
    rw [show (calling []).ownAcks (.rxReply answer200) = [10, 10] by decide] at hmem
    obtain rfl : cseq = 10 := by simpa using hmem
    decide
  have hnone : ∀ {p : BitVec 32 → Prop}, ∀ cseq ∈ ([] : List (BitVec 32)), p cseq :=
    fun _ hmem => absurd hmem not_mem_nil
  have hfits : RunFits (init mediaLines "l".toList 10 .disabled true)
      ((quietEnv, .sendRequest .INVITE (some audioBody) []) :: answered) :=
    ⟨⟨by decide, .inr hnone⟩, hreply, ⟨by decide, .inr hnone⟩, ⟨by decide, .inr hnone⟩,
      ⟨by decide, .inr hnone⟩, trivial⟩
  exact ⟨by decide, run_answersOnly _ _ _ _ _ _ hfits⟩

/-- Its offer is taken as the answer to ours. -/
theorem run_not_answersOnly_update :
    ¬ ∀ evs : List (DlgEnv (List Str) × DlgEv),
      AnswersOnly
        ((init mediaLines "l".toList 10 .disabled true).run evs).oa.trace := by
  intro h
  have htrace : (calling [(quietEnv, .rxRequest crossingUpdate)]).oa.trace =
      [⟨.none, .offerSent, some ⟨false, false, .INVITE, 10, none⟩⟩,
        ⟨.offerSent, .completed, some ⟨true, false, .UPDATE, 5, none⟩⟩] := by
    decide
  have hupdate : AnswersOnly (calling [(quietEnv, .rxRequest crossingUpdate)]).oa.trace := h _
  obtain ⟨m, offer, hm, hoffer, ⟨-, hans⟩, -⟩ := hupdate [_] _ [] htrace rfl
  obtain rfl := some.inj hm
  obtain rfl := some.inj hoffer
  rcases hans with hans | ⟨hans, -⟩ <;> exact absurd hans (by decide)

end AmSipDialog

end Sems
