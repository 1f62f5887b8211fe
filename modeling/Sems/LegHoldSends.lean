import Sems.LegHold

/-!
# What a call leg does by sending a message

`OaSends` says what the offer/answer engine can do with a message that is to be sent, and `Sends`
what sending it can do to the leg : nothing happens, an offer goes out (`Offers`), or the answer to
the peer's offer does. `transmit_sends` and `sendReply_sends` are the results for requests and
replies, and `transmit_fails` says when a request is not sent.
-/

namespace Sems

open AmSipDialog

variable {Sdp : Type*} {ops : LegSdpOps Sdp} {env : LegEnv}

/-! ## What the engine does with a message that is sent -/

namespace AmOfferAnswer

/-- The engine after a message was handed to it to be sent. Only one with a session description is
an offer, and none clears the engine while the leg `waits` for an answer. -/
inductive OaSends (waits : Prop) (oa : AmOfferAnswer Sdp) (cseq : BitVec 32) (has : Bool)
    (oa' : AmOfferAnswer Sdp) : Prop
  | keeps (state : oa'.state = oa.state) (cseq : oa'.cseq = oa.cseq)
      (saved : oa'.savedState = oa.state)
  | offers (sdp : has = true) (before : oa.state = .none ∨ oa.state = .completed)
      (state : oa'.state = .offerSent) (cseq : oa'.cseq = cseq)
  | answers (before : oa.state = .offerRecved) (state : oa'.state = .completed)
      (saved : oa'.savedState = .offerRecved)
  | clears (before : waits → oa.state ≠ .offerSent) (state : oa'.state = .none)

theorem sdpBody_hasSdp {text : Str} :
    (sdpBody text).hasContentType SIP_APPLICATION_SDP = some (sdpBody text) :=
  if_pos (show AmContentType.hasContentType ⟨"application".toList, "sdp".toList⟩
    SIP_APPLICATION_SDP = true by decide)

theorem sdpBody_hasCsta {text : Str} : hasCsta (sdpBody text) = false := by
  rfl

theorem none_hasSdp : AmMimeBody.none.hasContentType SIP_APPLICATION_SDP = none := by
  decide

theorem none_hasCsta : hasCsta .none = false := by
  decide

/-- What `onTxSdp` does with a body that is not empty. -/
theorem onTxSdp_cases (waits : Prop) (oa : AmOfferAnswer Sdp) (msg : OaMsg) {body : AmMimeBody}
    (hbody : body.empty = false) (hsaved : oa.savedState = oa.state) :
    ((oa.onTxSdp msg body).2 = true ↔ oa.state ≠ .offerSent) ∧
      OaSends waits oa msg.cseq true (oa.onTxSdp msg body).1 := by
  unfold onTxSdp
  rw [if_neg (by simp [hbody])]
  cases hst : oa.state with
  | none => exact ⟨by simp, .offers rfl (.inl hst) rfl rfl⟩
  | completed => exact ⟨by simp, .offers rfl (.inr hst) rfl rfl⟩
  | offerRecved => exact ⟨by simp, .answers hst rfl (hsaved.trans hst)⟩
  | offerSent => exact ⟨by simp, .keeps rfl rfl hsaved⟩

/-- In these states it is an offer. -/
theorem onTxSdp_offers (oa : AmOfferAnswer Sdp) (msg : OaMsg) {body : AmMimeBody}
    (hbody : body.empty = false) (hst : oa.state = .none ∨ oa.state = .completed) :
    (oa.onTxSdp msg body).2 = true ∧ (oa.onTxSdp msg body).1.state = .offerSent ∧
      (oa.onTxSdp msg body).1.cseq = msg.cseq := by
  unfold onTxSdp
  rw [if_neg (by simp [hbody])]
  rcases hst with hst | hst <;> (rw [hst]; exact ⟨rfl, rfl, rfl⟩)

/-- Only the state and the CSeq before matter. -/
theorem OaSends.congr {waits : Prop} {oa₀ oa oa' : AmOfferAnswer Sdp} {cseq : BitVec 32}
    {has has₀ : Bool} (h : OaSends waits oa cseq has oa') (hstate : oa.state = oa₀.state)
    (hcseq : oa.cseq = oa₀.cseq) (hhas : has = true → has₀ = true) :
    OaSends waits oa₀ cseq has₀ oa' := by
  cases h with
  | keeps state cseq saved =>
    exact .keeps (state.trans hstate) (cseq.trans hcseq) (saved.trans hstate)
  | offers sdp before state cseq => exact .offers (hhas sdp) (hstate ▸ before) state cseq
  | answers before state saved => exact .answers (hstate ▸ before) state saved
  | clears before state => exact .clears (hstate ▸ before) state

end AmOfferAnswer

namespace HoldLeg

open AmOfferAnswer

/-- The body of a message with a session description. -/
theorem of_toBody_some {body : AmMimeBody} {sdp : Sdp} (h : body = toBody ops (some sdp)) :
    body.empty = false ∧ body.getLen ≠ 0 ∧ body.hasContentType SIP_APPLICATION_SDP = some body := by
  have hlen : (ops.print sdp).length ≠ 0 := fun h =>
    ops.print_ne_nil sdp (List.eq_nil_of_length_eq_zero h)
  subst h
  refine ⟨?_, hlen, sdpBody_hasSdp⟩
  simp [toBody, sdpBody, AmMimeBody.empty, AmMimeBody.getPayload, AmMimeBody.getLen,
    AmMimeBody.getParts, hlen]

/-- A leg has no session description of its own. -/
theorem getSdpBody_legHandler (oa : AmOfferAnswer Sdp) :
    oa.getSdpBody ops.toSdpOps (some legHandler) = (oa, none) := by
  have hask : askHandler (some legHandler) oa = (false, oa.sdpLocal) := by
    cases hst : oa.state <;> simp [askHandler, hst, legHandler]
  simp [getSdpBody, hask]

variable {oa : AmOfferAnswer Sdp} {req : AmSipRequest} {sdp : Sdp}

/-- A request with a session description. -/
theorem onRequestOut_some {msg : OaMsg} (hbody : req.body = toBody ops (some sdp)) :
    oa.onRequestOut ops.toSdpOps (some legHandler) msg req =
      let res := { oa.saveState with
        sdpLocal := (ops.parse req.body.getPayload).1 }.onTxSdp msg req.body
      (res.1, if res.2 then .ok req else .refused) := by
  obtain ⟨-, hlen, hsdp⟩ := of_toBody_some hbody
  unfold onRequestOut
  rw [hsdp]
  dsimp only
  rw [if_neg hlen]
  unfold finishRequest
  generalize { oa.saveState with
    sdpLocal := (ops.parse req.body.getPayload).1 }.onTxSdp msg req.body = res
  obtain ⟨oa', ok⟩ := res
  cases ok <;> rfl

variable {waits : Prop}

/-- A request that is handed to the engine. One without a session description is refused where an
answer is due. -/
theorem onRequestOut_sends (waits : Prop) (oa : AmOfferAnswer Sdp) (msg : OaMsg) {sdp : Option Sdp}
    (hbody : req.body = toBody ops sdp) :
    ∃ oa', ∃ ok : Bool, oa.onRequestOut ops.toSdpOps (some legHandler) msg req =
      (oa', if ok then .ok req else .refused) ∧ OaSends waits oa msg.cseq sdp.isSome oa' := by
  cases sdp with
  | none =>
    have hbody : req.body = .none := hbody
    unfold onRequestOut
    rw [hbody, none_hasSdp]
    dsimp only
    by_cases hdue : oa.answerDue req = true
    · rw [if_pos hdue, getSdpBody_legHandler]
      exact ⟨oa.saveState, false, rfl, .keeps rfl rfl rfl⟩
    · rw [if_neg hdue]
      unfold finishRequest
      rw [hbody, none_hasCsta]
      exact ⟨oa.saveState, true, rfl, .keeps rfl rfl rfl⟩
  | some sdp =>
    have hempty := (of_toBody_some hbody).1
    refine ⟨_, _, onRequestOut_some hbody, ?_⟩
    exact (onTxSdp_cases waits _ msg hempty rfl).2.congr rfl rfl id

/-- An offer in a request. -/
theorem onRequestOut_offers (oa : AmOfferAnswer Sdp) (msg : OaMsg)
    (hbody : req.body = toBody ops (some sdp)) (hst : oa.state = .none ∨ oa.state = .completed) :
    ∃ oa', oa.onRequestOut ops.toSdpOps (some legHandler) msg req = (oa', .ok req) ∧
      oa'.state = .offerSent ∧ oa'.cseq = msg.cseq := by
  have hempty := (of_toBody_some hbody).1
  obtain ⟨hok, hsent⟩ := onTxSdp_offers
    { oa.saveState with sdpLocal := (ops.parse req.body.getPayload).1 } msg hempty hst
  rw [onRequestOut_some hbody]
  exact ⟨_, congrArg _ (if_pos hok), hsent⟩

/-- A second offer is refused. -/
theorem onRequestOut_refused (oa : AmOfferAnswer Sdp) (msg : OaMsg)
    (hbody : req.body = toBody ops (some sdp)) (hst : oa.state = .offerSent) :
    ∃ oa', oa.onRequestOut ops.toSdpOps (some legHandler) msg req = (oa', .refused) := by
  have hempty := (of_toBody_some hbody).1
  rw [onRequestOut_some hbody]
  refine ⟨_, congrArg _ (if_neg fun hok => ?_)⟩
  exact (onTxSdp_cases True _ msg hempty rfl).1.1 hok hst

variable {reply : AmSipReply} {has : Bool}

/-- The last part of `onReplyOut`. -/
theorem finishReply_sends (ops : LegSdpOps Sdp) (oa : AmOfferAnswer Sdp) (msg : OaMsg)
    (hsaved : oa.savedState = oa.state) (hcsta : hasCsta reply.body = false)
    (hempty : has = true → reply.body.empty = false)
    (hreset : waits → oa.state = .offerSent → 300 ≤ reply.code → reply.cseq ≠ oa.cseq) :
    ∃ oa', ∃ ok : Bool, oa.finishReply ops.toSdpOps msg reply has =
      (oa', if ok then .ok reply else .refused) ∧ OaSends waits oa msg.cseq has oa' := by
  unfold finishReply
  simp only [hcsta, Bool.and_false, Bool.or_false]
  cases has with
  | false =>
    simp only [Bool.false_eq_true, if_false, Bool.not_true]
    split_ifs with hcode
    · refine ⟨_, true, rfl, ?_⟩
      unfold clearTransitionalState
      by_cases hst : oa.state = .completed
      · rw [if_neg (not_not.2 hst)]
        exact .keeps rfl rfl hsaved
      · rw [if_pos hst]
        exact .clears (fun hwaits hsent => hreset hwaits hsent hcode.1 hcode.2) rfl
    · exact ⟨_, true, rfl, .keeps rfl rfl hsaved⟩
  | true =>
    simp only [if_true]
    obtain ⟨hok, hsends⟩ := onTxSdp_cases waits oa msg (hempty rfl) hsaved
    by_cases hres : (oa.onTxSdp msg reply.body).2 = true
    · rw [if_neg (by simp [hres])]
      split
      · refine ⟨_, true, rfl, ?_⟩
        unfold clearTransitionalState
        by_cases hst : (oa.onTxSdp msg reply.body).1.state = .completed
        · rw [if_neg (not_not.2 hst)]
          exact hsends
        · rw [if_pos hst]
          exact .clears (fun _ => hok.1 hres) rfl
      · exact ⟨_, true, rfl, hsends⟩
    · rw [if_pos (by simp [hres])]
      exact ⟨_, false, rfl, hsends⟩

theorem toBody_hasCsta {sdp : Option Sdp} : hasCsta (toBody ops sdp) = false := by
  cases sdp with
  | none => exact none_hasCsta
  | some sdp => exact sdpBody_hasCsta

/-- `has_sdp` is false in a reply without a session description. -/
theorem isSome_of_hasSdp {sdp : Option Sdp} (hbody : reply.body = toBody ops sdp)
    (hhas : oa.hasSdp reply = true) :
    sdp.isSome = true ∧ reply.body.empty = false := by
  cases sdp with
  | none =>
    have hnone : reply.body.hasContentType SIP_APPLICATION_SDP = none := by
      rw [hbody]
      exact none_hasSdp
    rw [hasSdp, hnone] at hhas
    exact absurd hhas Bool.false_ne_true
  | some sdp => exact ⟨rfl, (of_toBody_some hbody).1⟩

/-- A reply. -/
theorem onReplyOut_sends (oa : AmOfferAnswer Sdp) (msg : OaMsg) {sdp : Option Sdp}
    (hbody : reply.body = toBody ops sdp)
    (hreset : waits → oa.state = .offerSent → 300 ≤ reply.code → reply.cseq ≠ oa.cseq) :
    ∃ oa', ∃ ok : Bool, oa.onReplyOut ops.toSdpOps (some legHandler) msg reply =
      (oa', if ok then .ok reply else .refused) ∧ OaSends waits oa msg.cseq sdp.isSome oa' := by
  have hcsta : hasCsta reply.body = false := by
    rw [hbody]
    exact toBody_hasCsta
  unfold onReplyOut
  by_cases hgen : oa.saveState.generateSdp reply = true
  · simp only [hgen, if_true, getSdpBody_legHandler]
    split_ifs with hopt
    · obtain ⟨oa', ok, hres, hsends⟩ := finishReply_sends ops oa.saveState msg rfl hcsta
        (fun hhas => (isSome_of_hasSdp hbody hhas).2) hreset
      exact ⟨oa', ok, hres, hsends.congr rfl rfl fun hhas => (isSome_of_hasSdp hbody hhas).1⟩
    · exact ⟨oa.saveState, false, rfl, .keeps rfl rfl rfl⟩
  · simp only [hgen, Bool.false_eq_true, if_false]
    split_ifs with hhas
    · obtain ⟨oa', ok, hres, hsends⟩ := finishReply_sends ops
        { oa.saveState with sdpLocal := (ops.parse (sdpPayload reply.body)).1 } msg rfl hcsta
        (fun _ => (isSome_of_hasSdp hbody hhas).2) hreset
      exact ⟨oa', ok, hres, hsends.congr rfl rfl fun _ => (isSome_of_hasSdp hbody hhas).1⟩
    · obtain ⟨oa', ok, hres, hsends⟩ := finishReply_sends ops oa.saveState msg rfl hcsta
        (fun h : false = true => nomatch h) hreset
      exact ⟨oa', ok, hres, hsends.congr rfl rfl nofun⟩

/-- An offer in a reply to the INVITE. -/
theorem onReplyOut_offers (oa : AmOfferAnswer Sdp) (msg : OaMsg)
    (hbody : reply.body = toBody ops (some sdp)) (hst : oa.state = .none ∨ oa.state = .completed)
    (hcode : reply.code < 300) (hnew : oa.state = .completed → reply.cseq ≠ oa.cseq) :
    ∃ oa', oa.onReplyOut ops.toSdpOps (some legHandler) msg reply = (oa', .ok reply) ∧
      oa'.state = .offerSent ∧ oa'.cseq = msg.cseq := by
  obtain ⟨hempty, hlen, hsdp⟩ := of_toBody_some hbody
  have hgen : oa.saveState.generateSdp reply = false := by
    rw [generateSdp, hsdp]
    exact beq_false_of_ne hlen
  have hhas : oa.saveState.hasSdp reply = true := by
    rw [hasSdp, hsdp]
    have hrepeat : ¬ (reply.cseqMethod = .INVITE ∧ reply.code < 300 ∧
        (oa.state = .completed ∨ oa.state = .offerSent) ∧ reply.cseq = oa.cseq) := by
      rintro ⟨-, -, hcompl | hsent, hcseq⟩
      · exact hnew hcompl hcseq
      · rw [hsent] at hst
        simp at hst
    simp only [Bool.and_eq_true, bne_iff_ne, Bool.not_eq_true', decide_eq_false_iff_not]
    exact ⟨hlen, hrepeat⟩
  obtain ⟨hok, hsent⟩ := onTxSdp_offers
    { oa.saveState with sdpLocal := (ops.parse (sdpPayload reply.body)).1 } msg hempty hst
  have hnorm := Nat.not_le.2 hcode
  simp only [onReplyOut, hgen, hhas, finishReply, Bool.true_or, if_true, Bool.false_eq_true,
    if_false, hok, Bool.not_true, hnorm, false_and]
  exact ⟨_, rfl, hsent⟩

/-! ## What sending does to the leg -/

/-- The hold state and the log stay. -/
structure SameHold (leg leg' : HoldLeg Sdp) : Prop where
  hold : leg'.hold = leg.hold
  onHold : leg'.onHold = leg.onHold
  outstanding : leg'.outstanding = leg.outstanding
  completed : leg'.completed = leg.completed

variable {leg₁ : HoldLeg Sdp}

theorem SameHold.trans {leg₂ leg₃ : HoldLeg Sdp} (h : SameHold leg₁ leg₂) (h' : SameHold leg₂ leg₃)
    : SameHold leg₁ leg₃ :=
  ⟨h'.hold.trans h.hold, h'.onHold.trans h.onHold, h'.outstanding.trans h.outstanding,
    h'.completed.trans h.completed⟩

/-- A pending offer of ours stays pending. -/
def KeepsPending (waits : Prop) (oa oa' : AmOfferAnswer Sdp) : Prop :=
  waits → oa.state = .offerSent → oa'.state = .offerSent ∧ oa'.cseq = oa.cseq

/-- An offer went out. -/
structure Offers (leg : HoldLeg Sdp) (offer : HoldOffer) (leg' : HoldLeg Sdp) : Prop where
  hold : leg'.hold = leg.hold
  onHold : leg'.onHold = leg.onHold
  outstanding : leg'.outstanding = leg.outstanding ++ [offer]
  completed : leg'.completed = leg.completed
  state : leg'.oa.state = .offerSent
  cseq : leg'.oa.cseq = offer.msg.cseq

/-- The leg after it tried to send `offer.msg`. -/
inductive Sends (waits : Prop) (leg : HoldLeg Sdp) (offer : HoldOffer) (has : Bool)
    (leg' : HoldLeg Sdp) : Prop
  | quiet (same : SameHold leg leg') (pending : KeepsPending waits leg.oa leg'.oa)
  | offers (sdp : has = true) (before : leg.offersNext = true) (sent : Offers leg offer leg')
  | answers (before : leg.oa.state = .offerRecved) (hold : leg'.hold = .PreserveHoldStatus)
      (onHold : leg'.onHold = accepted leg.hold leg.onHold)
      (outstanding : leg'.outstanding = leg.outstanding)
      (completed : leg'.completed = leg.completed)

variable {leg : HoldLeg Sdp}

theorem offersNext_iff :
    leg.offersNext = true ↔ leg.oa.state = .none ∨ leg.oa.state = .completed := by
  simp [offersNext]

theorem clearOa_sameHold (ops : LegSdpOps Sdp) (leg : HoldLeg Sdp) (cseq : BitVec 32) :
    SameHold leg (leg.clearOa ops cseq) := by
  unfold clearOa
  split_ifs
  · exact ⟨rfl, rfl, rfl, rfl⟩
  · exact ⟨rfl, rfl, rfl, rfl⟩

variable {cseq : BitVec 32}

/-- The engine is not reset if the CSeq is another one. -/
theorem clearOa_of_ne (h : cseq ≠ leg.oa.cseq) : leg.clearOa ops cseq = leg :=
  if_neg h

theorem clearOa_of_eq (h : cseq = leg.oa.cseq) (hst : leg.oa.state ≠ .completed) :
    (leg.clearOa ops cseq).oa.state = .none := by
  unfold clearOa AmOfferAnswer.clearTransitionalState
  rw [if_pos h, if_pos hst]
  rfl

theorem checkStateChange_of_ne (h : leg.oa.state ≠ .completed) :
    leg.checkStateChange ops env = leg :=
  if_neg fun hst => h hst.2

theorem checkStateChange_of_saved (h : leg.oa.savedState = leg.oa.state) :
    leg.checkStateChange ops env = leg :=
  if_neg fun hst => hst.1 h

/-- The exchange was completed. -/
theorem checkStateChange_of_completed
    (hst : leg.oa.state = .completed) (hsaved : leg.oa.savedState ≠ .completed) :
    ∃ leg', leg.checkStateChange ops env = leg' ∧ leg'.hold = .PreserveHoldStatus ∧
      leg'.onHold = accepted leg.hold leg.onHold ∧ leg'.outstanding = leg.outstanding ∧
      leg'.completed = leg.completed ∧ leg'.oa.state ≠ .offerSent := by
  have hcheck : leg.checkStateChange ops env = leg.onSdpCompleted ops env :=
    if_pos ⟨fun h => hsaved (h.trans hst), hst⟩
  rw [hcheck]
  unfold onSdpCompleted
  split_ifs
  · exact ⟨_, rfl, rfl, rfl, rfl, rfl, nofun⟩
  · exact ⟨_, rfl, rfl, rfl, rfl, rfl, fun h => nomatch hst.symm.trans h⟩

variable {offer : HoldOffer}

theorem noteOffer_of_ne {before : OAState} (h : leg.oa.state = .offerSent → before = .offerSent) :
    leg.noteOffer before offer = leg :=
  if_neg fun hst => hst.2 (h hst.1)

/-- The message did not go out. -/
theorem OaSends.quiet {oa' : AmOfferAnswer Sdp} (h : OaSends waits leg.oa cseq has oa') :
    KeepsPending waits leg.oa oa' := by
  intro hwaits hsent
  cases h with
  | keeps state cseq _ => exact ⟨state.trans hsent, cseq⟩
  | offers _ before _ _ =>
    rw [hsent] at before
    simp at before
  | answers before _ _ => exact nomatch before.symm.trans hsent
  | clears before _ => exact absurd hsent (before hwaits)

/-- Clearing leaves no new pending offer. -/
theorem clearOa_offerSent (h : (leg.clearOa ops cseq).oa.state = .offerSent) :
    leg.oa.state = .offerSent := by
  by_cases hcseq : cseq = leg.oa.cseq
  · by_cases hst : leg.oa.state = .completed
    · unfold clearOa AmOfferAnswer.clearTransitionalState at h
      rw [if_pos hcseq, if_neg (not_not.2 hst)] at h
      exact h
    · exact nomatch (clearOa_of_eq hcseq hst).symm.trans h
  · rwa [clearOa_of_ne hcseq] at h

/-- `onRequestSent` and `onReplySent` : the engine after the message went out. -/
def sentOa (ops : LegSdpOps Sdp) (env : LegEnv) (leg : HoldLeg Sdp) (clears : Bool)
    (cseq : BitVec 32) : HoldLeg Sdp :=
  if clears then (leg.checkStateChange ops env).clearOa ops cseq else leg.checkStateChange ops env

/-- An offer went out. -/
theorem offers_of_sent (hnext : leg.offersNext = true) (hsame : SameHold leg leg₁)
    (hstate : leg₁.oa.state = .offerSent) (hcseq : leg₁.oa.cseq = offer.msg.cseq) :
    Offers leg offer ((sentOa ops env leg₁ false cseq).noteOffer leg.oa.state offer) := by
  have hne : leg.oa.state ≠ .offerSent := by
    rcases offersNext_iff.1 hnext with hst | hst <;> simp [hst]
  have hcheck : sentOa ops env leg₁ false cseq = leg₁ :=
    checkStateChange_of_ne (by simp [hstate])
  have hnote : leg₁.noteOffer leg.oa.state offer =
      { leg₁ with outstanding := leg₁.outstanding ++ [offer] } := if_pos ⟨hstate, hne⟩
  rw [hcheck, hnote]
  exact ⟨hsame.hold, hsame.onHold, congrArg (· ++ [offer]) hsame.outstanding, hsame.completed,
    hstate, hcseq⟩

/-- The message went out. -/
theorem sends_of_sent {clears : Bool} (h : OaSends waits leg.oa offer.msg.cseq has leg₁.oa)
    (hsame : SameHold leg leg₁)
    (hreset : waits → leg.oa.state = .offerSent → clears = true → offer.msg.cseq ≠ leg.oa.cseq) :
    Sends waits leg offer has
      ((sentOa ops env leg₁ clears offer.msg.cseq).noteOffer leg.oa.state offer) := by
  cases h with
  | keeps state cseq saved =>
    unfold sentOa
    rw [checkStateChange_of_saved (saved.trans state.symm)]
    have hnew : ∀ {leg' : HoldLeg Sdp}, (leg'.oa.state = .offerSent → leg₁.oa.state = .offerSent) →
        leg'.noteOffer leg.oa.state offer = leg' := fun h =>
      noteOffer_of_ne fun hst => state.symm.trans (h hst)
    split_ifs with hclears
    · rw [hnew clearOa_offerSent]
      refine .quiet (hsame.trans (clearOa_sameHold ..)) fun hwaits hst => ?_
      rw [clearOa_of_ne fun h => hreset hwaits hst hclears (h.trans cseq)]
      exact ⟨state.trans hst, cseq⟩
    · rw [hnew id]
      exact .quiet hsame fun _ hst => ⟨state.trans hst, cseq⟩
  | offers sdp before state cseq =>
    cases clears with
    | false =>
      have hnext := offersNext_iff.2 before
      exact .offers sdp hnext (offers_of_sent hnext hsame state cseq)
    | true =>
      have hnone : (leg₁.clearOa ops offer.msg.cseq).oa.state = .none :=
        clearOa_of_eq cseq.symm (by simp [state])
      have hsent : sentOa ops env leg₁ true offer.msg.cseq = leg₁.clearOa ops offer.msg.cseq :=
        congrArg (clearOa ops · offer.msg.cseq) (checkStateChange_of_ne (by simp [state]))
      rw [hsent, noteOffer_of_ne fun hst => nomatch hnone.symm.trans hst]
      refine .quiet (hsame.trans (clearOa_sameHold ..)) fun _ hst => ?_
      rw [hst] at before
      simp at before
  | answers before state saved =>
    unfold sentOa
    obtain ⟨leg', hcheck, hhold, honHold, hout, hcompl, hst⟩ :=
      checkStateChange_of_completed state (by simp [saved])
    rw [hcheck]
    rw [hsame.hold, hsame.onHold] at honHold
    split_ifs with hclears
    · rw [noteOffer_of_ne fun h => absurd (clearOa_offerSent h) hst]
      have hclear := clearOa_sameHold ops leg' offer.msg.cseq
      exact .answers before (hclear.hold.trans hhold) (hclear.onHold.trans honHold)
        (hclear.outstanding.trans (hout.trans hsame.outstanding))
        (hclear.completed.trans (hcompl.trans hsame.completed))
    · rw [noteOffer_of_ne fun h => absurd h hst]
      exact .answers before hhold honHold (hout.trans hsame.outstanding)
        (hcompl.trans hsame.completed)
  | clears before state =>
    unfold sentOa
    rw [checkStateChange_of_ne (by simp [state])]
    split_ifs with hclears
    · rw [noteOffer_of_ne fun h => nomatch state.symm.trans (clearOa_offerSent h)]
      exact .quiet (hsame.trans (clearOa_sameHold ..)) fun hwaits hst => absurd hst (before hwaits)
    · rw [noteOffer_of_ne fun h => nomatch state.symm.trans h]
      exact .quiet hsame fun hwaits hst => absurd hst (before hwaits)

/-- The leg as it is when the request has gone out, before the engine is told. -/
def requestOut (leg : HoldLeg Sdp) (oa : AmOfferAnswer Sdp) (req : AmSipRequest) : HoldLeg Sdp :=
  if req.method ≠ .ACK then
    { leg with oa := oa, uacTrans := insert req.cseq leg.uacTrans, cseq := leg.cseq + 1 }
  else { leg with oa := oa, uacTrans := leg.uacTrans.erase req.cseq }

theorem onRequestTxed_eq :
    { leg with oa := oa }.onRequestTxed ops env req =
      sentOa ops env (leg.requestOut oa req) (req.method = .ACK) req.cseq := by
  unfold onRequestTxed sentOa requestOut
  simp only [decide_eq_true_eq]

theorem requestOut_sameHold (leg : HoldLeg Sdp) (oa : AmOfferAnswer Sdp) (req : AmSipRequest) :
    SameHold leg (leg.requestOut oa req) ∧ (leg.requestOut oa req).oa = oa := by
  unfold requestOut
  split_ifs <;> exact ⟨⟨rfl, rfl, rfl, rfl⟩, rfl⟩

theorem onReplyTxed_eq :
    leg.onReplyTxed ops env reply =
      sentOa ops env leg (200 ≤ reply.code ∧ reply.cseqMethod ≠ .CANCEL ∧
        reply.cseqMethod ≠ .INVITE) reply.cseq := by
  unfold onReplyTxed sentOa
  simp only [decide_eq_true_eq]

variable {hold : Bool}

/-- Sending a request. If it fails, the hold state stays. -/
theorem transmit_sends {sdp : Option Sdp} (hbody : req.body = toBody ops sdp)
    (hreset : waits → leg.oa.state = .offerSent → req.method = .ACK → req.cseq ≠ leg.oa.cseq) :
    Sends waits leg ⟨requestMsg req false, hold⟩ sdp.isSome
        (leg.transmit ops env req hold).1 ∧
      ((leg.transmit ops env req hold).2 = false →
        SameHold leg (leg.transmit ops env req hold).1 ∧
          KeepsPending waits leg.oa (leg.transmit ops env req hold).1.oa) := by
  unfold transmit
  split
  · exact ⟨.quiet ⟨rfl, rfl, rfl, rfl⟩ fun _ hst => ⟨hst, rfl⟩,
      fun _ => ⟨⟨rfl, rfl, rfl, rfl⟩, fun _ hst => ⟨hst, rfl⟩⟩⟩
  obtain ⟨oa, ok, hres, hsends⟩ := onRequestOut_sends waits leg.oa (requestMsg req false) hbody
  have hfailed : SameHold leg { leg with oa := oa } ∧ KeepsPending waits leg.oa oa :=
    ⟨⟨rfl, rfl, rfl, rfl⟩, OaSends.quiet hsends⟩
  dsimp only
  rw [hres]
  cases ok with
  | false => exact ⟨.quiet hfailed.1 hfailed.2, fun _ => hfailed⟩
  | true =>
    simp only [↓reduceIte]
    split_ifs
    · refine ⟨?_, nofun⟩
      obtain ⟨hsame, hoa⟩ := requestOut_sameHold leg oa req
      rw [onRequestTxed_eq]
      refine sends_of_sent ?_ hsame fun hwaits hst hack =>
        hreset hwaits hst (of_decide_eq_true hack)
      rw [hoa]
      exact hsends
    · exact ⟨.quiet hfailed.1 hfailed.2, fun _ => hfailed⟩

/-- An offer in a request. -/
theorem transmit_offers (hbody : req.body = toBody ops (some sdp)) (hnext : leg.offersNext = true)
    (hmethod : req.method ≠ .ACK) (hgoes : env.send = .goes) :
    (leg.transmit ops env req hold).2 = true ∧
      Offers leg ⟨requestMsg req false, hold⟩ (leg.transmit ops env req hold).1 := by
  obtain ⟨oa, hres, hstate, hcseq⟩ := onRequestOut_offers leg.oa
    (requestMsg req false) hbody (offersNext_iff.1 hnext)
  unfold transmit
  rw [if_neg (by simp [hgoes])]
  dsimp only
  rw [hres]
  dsimp only
  rw [if_pos hgoes, onRequestTxed_eq, decide_eq_false hmethod]
  obtain ⟨hsame, hoa⟩ := requestOut_sameHold leg oa req
  refine ⟨rfl, offers_of_sent hnext hsame ?_ ?_⟩
  · rw [hoa]
    exact hstate
  · rw [hoa]
    exact hcseq

/-- A request with a session description fails if it is a second offer or does not go out. -/
theorem transmit_fails (hbody : req.body = toBody ops (some sdp))
    (hst : leg.oa.state ≠ .offerRecved) (hfails : ¬ (leg.offersNext = true ∧ env.send = .goes)) :
    (leg.transmit ops env req hold).2 = false := by
  unfold transmit
  split
  · rfl
  dsimp only
  by_cases hsent : leg.oa.state = .offerSent
  · obtain ⟨oa, hres⟩ := onRequestOut_refused leg.oa (requestMsg req false) hbody hsent
    rw [hres]
  · have hnext : leg.offersNext = true := by
      rw [offersNext_iff]
      cases h : leg.oa.state <;> simp_all
    have hgoes : env.send ≠ .goes := fun h => hfails ⟨hnext, h⟩
    split
    · rw [if_neg hgoes]
    · rfl

/-- Sending a reply. -/
theorem sendReply_sends {sdp : Option Sdp} (hbody : reply.body = toBody ops sdp)
    (hreset : waits → leg.oa.state = .offerSent → 300 ≤ reply.code ∨ 200 ≤ reply.code ∧
      reply.cseqMethod ≠ .CANCEL ∧ reply.cseqMethod ≠ .INVITE → reply.cseq ≠ leg.oa.cseq) :
    Sends waits leg ⟨replyMsg reply false, hold⟩ sdp.isSome
      (leg.sendReply ops env reply hold).1 := by
  unfold sendReply
  split
  · exact .quiet ⟨rfl, rfl, rfl, rfl⟩ fun _ hst => ⟨hst, rfl⟩
  obtain ⟨oa, ok, hres, hsends⟩ := onReplyOut_sends leg.oa (replyMsg reply false) hbody
    fun hwaits hst hcode => hreset hwaits hst (.inl hcode)
  have hfailed : Sends waits leg ⟨replyMsg reply false, hold⟩ sdp.isSome { leg with oa := oa } :=
    .quiet ⟨rfl, rfl, rfl, rfl⟩ (OaSends.quiet hsends)
  dsimp only
  rw [hres]
  cases ok with
  | false => exact hfailed
  | true =>
    simp only [↓reduceIte]
    split_ifs
    · rw [onReplyTxed_eq]
      exact sends_of_sent hsends ⟨rfl, rfl, rfl, rfl⟩ fun hwaits hst hclears =>
        hreset hwaits hst (.inr (of_decide_eq_true hclears))
    · exact hfailed

/-- An offer in a reply. -/
theorem sendReply_offers (hbody : reply.body = toBody ops (some sdp))
    (hnext : leg.offersNext = true) (hmethod : reply.cseqMethod = .INVITE)
    (hcode : reply.code < 300) (hnew : leg.oa.state = .completed → reply.cseq ≠ leg.oa.cseq)
    (hgoes : env.send = .goes) :
    Offers leg ⟨replyMsg reply false, hold⟩ (leg.sendReply ops env reply hold).1 := by
  obtain ⟨oa, hres, hstate, hcseq⟩ := onReplyOut_offers leg.oa
    (replyMsg reply false) hbody (offersNext_iff.1 hnext) hcode hnew
  unfold sendReply
  rw [if_neg (by simp [hgoes])]
  dsimp only
  rw [hres]
  dsimp only
  rw [if_pos hgoes, onReplyTxed_eq, decide_eq_false (by simp [hmethod])]
  exact offers_of_sent hnext ⟨rfl, rfl, rfl, rfl⟩ hstate hcseq

end HoldLeg

end Sems
