import Sems.LegHoldSends
import Sems.Runs

/-!
# Hold and resume over the runs of a call leg

`HoldOk` is what the two flags of a leg are to say when no offer of it is outstanding : nothing
is requested any more, and the remote party is on hold if the last completed offer put it there.

The flag is taken back for every negative reply to an INVITE and for no other one, and not at all if
a session description of the other leg could not be sent (`run_updateRejected`). `StepOk` are the
steps where that does no harm, and in a run of such steps `HoldOk` holds (`run_holdOk`). The
invariant has two cases, no offer outstanding (`Idle`) and one that the engine waits for (`Busy`).
-/

namespace Sems

open Option

variable {Sdp : Type*} {ops : LegSdpOps Sdp} {env : LegEnv}

namespace HoldLeg

open AmOfferAnswer

/-! ## The steps that keep the flag right -/

variable (ops)

variable (leg : HoldLeg Sdp)

/-- The session description of the other leg asks for hold, or for resuming. -/
def changesHold (sdp : Option Sdp) : Bool :=
  leg.offersNext && sdp.any fun sdp => ops.isHoldRequest sdp || leg.onHold

/-- The engine takes a session description from the request. -/
def readsRequest (req : AmSipRequest) : Bool :=
  carriesSdp req.method && !req.body.empty &&
    (req.body.hasContentType SIP_APPLICATION_SDP).any fun part =>
      (AmOfferAnswer.readSdp ops.toSdpOps ops.clear part).2.isNone

/-- The engine takes a session description from the reply. -/
def readsReply (reply : AmSipReply) : Bool :=
  replyHasSdp reply && (AmOfferAnswer.readSdp ops.toSdpOps ops.clear reply.body).2.isNone

/-- What keeps the flag right. A session description of the other leg that changes the hold state
goes out, as an offer. Hold and resume come when no such offer is pending and none of the peer.
While an offer is outstanding, what is received with a session description answers it, no other
exchange has its CSeq, and while it changes the hold state a negative final reply rejects it exactly
if it is to an INVITE. -/
def StepOk (ev : LegEnv × HoldEv Sdp) : Prop :=
  match ev.2 with
  | .putOnHold _ => leg.onHold = false →
      leg.oa.state ≠ .offerRecved ∧ leg.hold = .PreserveHoldStatus
  | .resumeHeld => leg.onHold = true → leg.oa.state ≠ .offerRecved ∧ leg.hold = .PreserveHoldStatus
  | .relaySip method cseq sdp _ =>
      (leg.changesHold ops sdp = true →
        (method = .INVITE ∨ method = .UPDATE ∨ method = .PRACK) ∧ ev.1.send = .goes) ∧
      (method = .ACK → leg.outstanding ≠ [] → cseq ≠ leg.oa.cseq)
  | .reinvite sdp => leg.changesHold ops sdp = true → ev.1.send = .goes
  | .relayReply method cseq code sdp =>
      (leg.changesHold ops sdp = true → method = .INVITE ∧ code < 300 ∧
        (leg.oa.state = .completed → cseq ≠ leg.oa.cseq) ∧ ev.1.send = .goes) ∧
      (leg.outstanding ≠ [] → 300 ≤ code ∨ 200 ≤ code ∧ method ≠ .CANCEL ∧ method ≠ .INVITE →
        cseq ≠ leg.oa.cseq)
  | .rxRequest req => ∀ offer ∈ leg.outstanding,
      (readsRequest ops req = true → (AmSipDialog.requestMsg req true).Answers offer.msg) ∧
      (req.method = .ACK → readsRequest ops req = false → req.cseq ≠ leg.oa.cseq)
  | .rxReply reply => ∀ offer ∈ leg.outstanding,
      (readsReply ops reply = true → (AmSipDialog.replyMsg reply true).Answers offer.msg) ∧
      (300 ≤ reply.code → reply.cseq = leg.oa.cseq → repliesTo reply offer = true) ∧
      (300 ≤ reply.code → leg.hold ≠ .PreserveHoldStatus →
        (repliesTo reply offer = true ↔ reply.cseqMethod = .INVITE))
  | .noAck cseq => leg.outstanding ≠ [] → cseq ≠ leg.oa.cseq
  | .setOther => True

/-- Nothing is requested without an outstanding offer, and the remote party is on hold if the last
completed offer put it there. -/
def HoldOk : Prop :=
  leg.outstanding = [] →
    leg.hold = .PreserveHoldStatus ∧
      (leg.onHold = true ↔ ∃ offer, leg.completed.getLast? = some offer ∧ offer.hold = true)

/-! ## The invariant -/

/-- The last completed offer put on hold. -/
def lastHold (completed : List HoldOffer) : Bool :=
  completed.getLast?.any HoldOffer.hold

/-- No offer is outstanding. -/
structure Idle : Prop where
  outstanding : leg.outstanding = []
  hold : leg.hold = .PreserveHoldStatus
  onHold : leg.onHold = lastHold leg.completed

/-- The engine waits for the answer to the one that is outstanding, and the flag is the one of
this offer. -/
structure Busy (offer : HoldOffer) : Prop where
  outstanding : leg.outstanding = [offer]
  state : leg.oa.state = .offerSent
  cseq : leg.oa.cseq = offer.msg.cseq
  kind : accepted leg.hold leg.onHold = offer.hold
  onHold : leg.onHold = lastHold leg.completed

def Inv : Prop :=
  Idle leg ∨ ∃ offer, Busy leg offer

variable {leg leg' : HoldLeg Sdp} {offer : HoldOffer}

theorem Idle.same (h : Idle leg) (hsame : SameHold leg leg') : Idle leg' :=
  ⟨hsame.outstanding.trans h.outstanding, hsame.hold.trans h.hold, by
    rw [hsame.onHold, hsame.completed, h.onHold]⟩

variable {waits : Prop}

theorem Busy.same (h : Busy leg offer) (hsame : SameHold leg leg')
    (hpending : KeepsPending waits leg.oa leg'.oa) (hwaits : waits) : Busy leg' offer where
  outstanding := hsame.outstanding.trans h.outstanding
  state := (hpending hwaits h.state).1
  cseq := (hpending hwaits h.state).2.trans h.cseq
  kind := by rw [hsame.hold, hsame.onHold, h.kind]
  onHold := by rw [hsame.onHold, hsame.completed, h.onHold]

/-- An offer went out when none was outstanding. -/
theorem Offers.busy (h : Offers leg offer leg') (hout : leg.outstanding = [])
    (hkind : accepted leg.hold leg.onHold = offer.hold)
    (honHold : leg.onHold = lastHold leg.completed) : Busy leg' offer where
  outstanding := by rw [h.outstanding, hout]; rfl
  state := h.state
  cseq := h.cseq
  kind := by rw [h.hold, h.onHold, hkind]
  onHold := by rw [h.onHold, h.completed, honHold]

theorem Inv.same (h : Inv leg) (hsame : SameHold leg leg')
    (hpending : KeepsPending True leg.oa leg'.oa) : Inv leg' := by
  rcases h with h | ⟨offer, h⟩
  · exact .inl (h.same hsame)
  · exact .inr ⟨offer, h.same hsame hpending trivial⟩

/-- Sending while nothing is requested. -/
theorem Idle.sends {has : Bool} (h : Idle leg) (hs : Sends waits leg offer has leg')
    (hkind : has = true → leg.offersNext = true → leg.onHold = offer.hold) : Inv leg' := by
  cases hs with
  | quiet same _ => exact .inl (h.same same)
  | offers sdp before sent =>
    refine .inr ⟨offer, sent.busy h.outstanding ?_ h.onHold⟩
    rw [h.hold]
    exact hkind sdp before
  | answers _ hold onHold outstanding completed =>
    rw [h.hold] at onHold
    exact .inl ⟨outstanding.trans h.outstanding, hold, by rw [onHold, completed]; exact h.onHold⟩

/-- Sending while an offer is outstanding. -/
theorem Busy.sends {has : Bool} {sent : HoldOffer} (h : Busy leg offer)
    (hs : Sends waits leg sent has leg') (hwaits : waits) : Busy leg' offer := by
  cases hs with
  | quiet same pending => exact h.same same pending hwaits
  | offers _ before _ =>
    rw [offersNext_iff, h.state] at before
    simp at before
  | answers before _ _ _ _ => exact nomatch before.symm.trans h.state

/-! ## Preparing a session description -/

/-- What preparing a session description does not touch. -/
structure Prepared (leg leg' : HoldLeg Sdp) : Prop where
  oa : leg'.oa = leg.oa
  uacTrans : leg'.uacTrans = leg.uacTrans
  onHold : leg'.onHold = leg.onHold
  outstanding : leg'.outstanding = leg.outstanding
  completed : leg'.completed = leg.completed

variable (leg)

theorem adjustOffer_prepared (sdp : Sdp) : Prepared leg (leg.adjustOffer ops sdp).1 := by
  unfold adjustOffer
  split_ifs <;> exact ⟨rfl, rfl, rfl, rfl, rfl⟩

theorem storeNonHoldSdp_prepared (sdp : Sdp) :
    Prepared leg (leg.storeNonHoldSdp sdp) ∧ (leg.storeNonHoldSdp sdp).hold = leg.hold := by
  unfold storeNonHoldSdp
  split_ifs <;> exact ⟨⟨rfl, rfl, rfl, rfl, rfl⟩, rfl⟩

/-- The flag after a session description of the other leg was prepared. -/
def flagFor (sdp : Sdp) : HoldStatus :=
  if leg.offersNext then (leg.adjustOffer ops sdp).1.hold else leg.hold

theorem updateLocalSdp_spec (sdp : Sdp) :
    Prepared leg (leg.updateLocalSdp ops sdp).1 ∧
      (leg.updateLocalSdp ops sdp).1.hold = leg.flagFor ops sdp := by
  unfold updateLocalSdp flagFor
  split_ifs with hnext
  · have h := adjustOffer_prepared ops leg sdp
    obtain ⟨h', hhold⟩ := storeNonHoldSdp_prepared (leg.adjustOffer ops sdp).1
      (leg.adjustOffer ops sdp).2
    exact ⟨⟨h'.oa.trans h.oa, h'.uacTrans.trans h.uacTrans, h'.onHold.trans h.onHold,
      h'.outstanding.trans h.outstanding, h'.completed.trans h.completed⟩, hhold⟩
  · exact storeNonHoldSdp_prepared leg sdp

theorem updateLocalBody_spec (sdp : Option Sdp) :
    Prepared leg (leg.updateLocalBody ops sdp).1 ∧
      (leg.updateLocalBody ops sdp).2.isSome = sdp.isSome ∧
      (leg.updateLocalBody ops sdp).1.hold = sdp.elim leg.hold (leg.flagFor ops) := by
  cases sdp with
  | none => exact ⟨⟨rfl, rfl, rfl, rfl, rfl⟩, rfl, rfl⟩
  | some sdp =>
    obtain ⟨h, hhold⟩ := updateLocalSdp_spec ops leg sdp
    exact ⟨h, rfl, hhold⟩

variable {leg ops}

/-- The flag changes only for a session description that changes the hold state. -/
theorem flagFor_of_not_changes {sdp : Sdp} (hhold : leg.hold = .PreserveHoldStatus)
    (h : leg.changesHold ops (some sdp) = false) : leg.flagFor ops sdp = .PreserveHoldStatus := by
  unfold flagFor adjustOffer
  simp only [changesHold, any_some, Bool.and_eq_false_iff, Bool.or_eq_false_iff] at h
  rcases h with hnext | ⟨hsdp, honHold⟩
  · simp [hnext, hhold]
  · simp [hhold, hsdp, honHold]

/-- Then it says what the offer asks for. -/
theorem flagFor_of_changes {sdp : Sdp} (hhold : leg.hold = .PreserveHoldStatus)
    (h : leg.changesHold ops (some sdp) = true) :
    accepted (leg.flagFor ops sdp) leg.onHold = ops.isHoldRequest sdp := by
  simp only [changesHold, any_some, Bool.and_eq_true, Bool.or_eq_true] at h
  unfold flagFor adjustOffer
  rw [if_pos h.1, if_neg (by simp [hhold])]
  split_ifs with hsdp honHold
  · exact hsdp.symm
  · exact (Bool.eq_false_of_not_eq_true hsdp).symm
  · exact absurd (h.2.resolve_left hsdp) honHold

theorem Prepared.offersNext (h : Prepared leg leg') : leg'.offersNext = leg.offersNext := by
  unfold HoldLeg.offersNext
  rw [h.oa]

variable {sdp : Option Sdp}

/-- Nothing is requested, and nothing is asked for. -/
theorem Idle.updateLocalBody (h : Idle leg) (hchanges : leg.changesHold ops sdp = false) :
    Idle (leg.updateLocalBody ops sdp).1 ∧
      ((leg.updateLocalBody ops sdp).2.isSome = true →
        (leg.updateLocalBody ops sdp).1.offersNext = true →
          (leg.updateLocalBody ops sdp).1.onHold = holds ops sdp) := by
  obtain ⟨hprep, hsome, hhold⟩ := updateLocalBody_spec ops leg sdp
  refine ⟨⟨hprep.outstanding.trans h.outstanding, ?_, ?_⟩, fun hsdp hnext => ?_⟩
  · rw [hhold]
    cases sdp with
    | none => exact h.hold
    | some sdp => exact flagFor_of_not_changes h.hold hchanges
  · rw [hprep.onHold, hprep.completed, h.onHold]
  · rw [hsome] at hsdp
    rw [hprep.offersNext] at hnext
    obtain ⟨sdp, rfl⟩ := isSome_iff_exists.1 hsdp
    simp only [changesHold, hnext, Bool.true_and, any_some, Bool.or_eq_false_iff] at hchanges
    rw [hprep.onHold, hchanges.2]
    exact hchanges.1.symm

variable {msg : OaMsg}

/-- Hold or resume is asked for : the flag fits the offer that is to go out. -/
theorem Idle.updateLocalBody_changes (h : Idle leg) (hchanges : leg.changesHold ops sdp = true)
    (hsent : Offers (leg.updateLocalBody ops sdp).1 ⟨msg, holds ops sdp⟩ leg') :
    Busy leg' ⟨msg, holds ops sdp⟩ := by
  obtain ⟨hprep, -, hhold⟩ := updateLocalBody_spec ops leg sdp
  refine hsent.busy (hprep.outstanding.trans h.outstanding) ?_ ?_
  · cases sdp with
    | none => simp [changesHold] at hchanges
    | some sdp =>
      rw [hhold, hprep.onHold]
      exact flagFor_of_changes h.hold hchanges
  · rw [hprep.onHold, hprep.completed, h.onHold]

/-- While an offer is pending, a session description is no offer. -/
theorem Busy.updateLocalBody (h : Busy leg offer) (sdp : Option Sdp) :
    Busy (leg.updateLocalBody ops sdp).1 offer := by
  obtain ⟨hprep, -, hhold⟩ := updateLocalBody_spec ops leg sdp
  have hnext : leg.offersNext = false := by
    rw [← Bool.not_eq_true, offersNext_iff, h.state]
    simp
  have hkeeps : (leg.updateLocalBody ops sdp).1.hold = leg.hold := by
    rw [hhold]
    cases sdp with
    | none => rfl
    | some sdp => exact if_neg (by simp [hnext])
  have hpending : KeepsPending True leg.oa (leg.updateLocalBody ops sdp).1.oa := by
    intro _ hst
    rw [hprep.oa]
    exact ⟨hst, rfl⟩
  exact h.same ⟨hkeeps, hprep.onHold, hprep.outstanding, hprep.completed⟩ hpending trivial

/-- A session description that changes the hold state is there, and it will be an offer. -/
theorem exists_of_changesHold (h : leg.changesHold ops sdp = true) :
    (leg.updateLocalBody ops sdp).1.offersNext = true ∧
      ∃ sdp', (leg.updateLocalBody ops sdp).2 = some sdp' := by
  obtain ⟨hprep, hsome, -⟩ := updateLocalBody_spec ops leg sdp
  simp only [changesHold, Bool.and_eq_true] at h
  refine ⟨hprep.offersNext.trans h.1, isSome_iff_exists.1 (hsome.trans ?_)⟩
  cases sdp with
  | none => simp at h
  | some sdp => rfl

/-! ## The steps -/

variable {method : SipMethod}

/-- A body of the other leg was prepared, and the message with it was handed to the dialog. -/
theorem Inv.relayed (h : Inv leg)
    (hsends : Sends (leg.outstanding ≠ []) (leg.relayBody ops method sdp).1 ⟨msg, holds ops sdp⟩
      (leg.relayBody ops method sdp).2.isSome leg')
    (hcarries : leg.changesHold ops sdp = true → carriesSdp method = true)
    (hoffers : leg.changesHold ops sdp = true →
      Offers (leg.relayBody ops method sdp).1 ⟨msg, holds ops sdp⟩ leg') : Inv leg' := by
  by_cases hc : carriesSdp method = true
  · have hbody : leg.relayBody ops method sdp = leg.updateLocalBody ops sdp := if_pos hc
    rw [hbody] at hsends hoffers
    rcases h with h | ⟨offer, h⟩
    · by_cases hchanges : leg.changesHold ops sdp = true
      · exact .inr ⟨_, h.updateLocalBody_changes hchanges (hoffers hchanges)⟩
      · obtain ⟨hidle, hkind⟩ := h.updateLocalBody (Bool.eq_false_of_not_eq_true hchanges)
        exact hidle.sends hsends hkind
    · exact .inr ⟨offer, (h.updateLocalBody sdp).sends hsends (by simp [h.outstanding])⟩
  · have hbody : leg.relayBody ops method sdp = (leg, sdp) := if_neg hc
    rw [hbody] at hsends
    rcases h with h | ⟨offer, h⟩
    · refine h.sends hsends fun hsdp hnext => ?_
      have hchanges := Bool.eq_false_of_not_eq_true fun hchanges => hc (hcarries hchanges)
      obtain ⟨sdp, rfl⟩ := isSome_iff_exists.1 hsdp
      simp only [changesHold, hnext, Bool.true_and, any_some, Bool.or_eq_false_iff]
        at hchanges
      exact hchanges.2.trans hchanges.1.symm
    · exact .inr ⟨offer, h.sends hsends (by simp [h.outstanding])⟩

theorem relayBody_prepared (ops : LegSdpOps Sdp) (leg : HoldLeg Sdp) (method : SipMethod)
    (sdp : Option Sdp) : Prepared leg (leg.relayBody ops method sdp).1 := by
  unfold relayBody
  split_ifs
  · exact (updateLocalBody_spec ops leg sdp).1
  · exact ⟨rfl, rfl, rfl, rfl, rfl⟩

variable {cseq : BitVec 32}

section Steps

variable (h : Inv leg)
include h

theorem Inv.relaySip {rackCseq : BitVec 32}
    (hok : StepOk ops leg (env, .relaySip method cseq sdp rackCseq)) :
    Inv (leg.relaySip ops env method cseq sdp rackCseq) := by
  obtain ⟨hchanges, hack⟩ := hok
  have hcarries : leg.changesHold ops sdp = true → carriesSdp method = true := by
    intro hc
    rcases (hchanges hc).1 with rfl | rfl | rfl <;> rfl
  unfold HoldLeg.relaySip
  dsimp only
  split_ifs with hmethod
  · refine h.relayed (transmit_sends rfl fun _ _ h => absurd h hmethod).1 hcarries fun hc => ?_
    have hbody : leg.relayBody ops method sdp = leg.updateLocalBody ops sdp := if_pos (hcarries hc)
    obtain ⟨hnext, sdp', hsdp'⟩ := hbody ▸ exists_of_changesHold hc
    exact (transmit_offers (congrArg (toBody ops) hsdp') hnext hmethod (hchanges hc).2).2
  · have hmethod : method = .ACK := not_not.1 hmethod
    have hprep := relayBody_prepared ops leg method sdp
    have hno : ¬ leg.changesHold ops sdp = true := by
      intro hc
      rcases (hchanges hc).1 with h' | h' | h' <;> exact nomatch hmethod.symm.trans h'
    unfold send200Ack
    split_ifs
    · refine h.relayed (transmit_sends rfl fun hwaits _ _ => ?_).1 hcarries fun hc => absurd hc hno
      rw [hprep.oa]
      exact hack hmethod hwaits
    · have hquiet : Sends (leg.outstanding ≠ []) (leg.relayBody ops method sdp).1
          ⟨⟨false, false, method, cseq, none⟩, holds ops sdp⟩
          (leg.relayBody ops method sdp).2.isSome (leg.relayBody ops method sdp).1 :=
        .quiet ⟨rfl, rfl, rfl, rfl⟩ fun _ hst => ⟨hst, rfl⟩
      exact h.relayed hquiet hcarries fun hc => absurd hc hno

theorem Inv.reinvite (hok : StepOk ops leg (env, .reinvite sdp)) :
    Inv (leg.reinvite ops env sdp) := by
  have hsends : Sends (leg.outstanding ≠ []) (leg.relayBody ops .INVITE sdp).1 _
      (leg.relayBody ops .INVITE sdp).2.isSome (leg.reinvite ops env sdp) :=
    (transmit_sends rfl fun _ _ h => by cases h).1
  refine h.relayed hsends (fun _ => rfl) fun hc => ?_
  obtain ⟨hnext, sdp', hsdp'⟩ := exists_of_changesHold hc
  exact (transmit_offers (congrArg (toBody ops) hsdp') hnext (by simp) (hok hc)).2

theorem Inv.relayReply {code : ℕ} (hok : StepOk ops leg (env, .relayReply method cseq code sdp)) :
    Inv (leg.relayReply ops env method cseq code sdp) := by
  obtain ⟨hchanges, hreset⟩ := hok
  have hprep := relayBody_prepared ops leg method sdp
  unfold HoldLeg.relayReply
  refine h.relayed (sendReply_sends rfl fun hwaits _ hclears => ?_) (fun hc => ?_) fun hc => ?_
  · rw [hprep.oa]
    exact hreset hwaits hclears
  · rw [(hchanges hc).1]
    rfl
  · obtain ⟨rfl, hcode, hnew, hgoes⟩ := hchanges hc
    obtain ⟨hnext, sdp', hsdp'⟩ := exists_of_changesHold hc
    refine sendReply_offers (congrArg (toBody ops) hsdp') hnext rfl hcode ?_ hgoes
    rw [hprep.oa]
    exact hnew

/-- An offer is outstanding only while the engine takes no other one. -/
theorem Inv.idle (hnext : leg.offersNext = true) : Idle leg := by
  rcases h with h | ⟨offer, h⟩
  · exact h
  · rw [offersNext_iff, h.state] at hnext
    simp at hnext

/-- The leg's own re-INVITE is prepared with the flag set, when no flag was set and no offer of the
peer pending. If it does not go out, the flag is taken back. -/
theorem Inv.requested (hok : leg.oa.state ≠ .offerRecved ∧ leg.hold = .PreserveHoldStatus)
    {flag : HoldStatus} {sdp sdp₁ : Sdp} {leg₁ : HoldLeg Sdp}
    (hres : { leg with hold := flag }.updateLocalSdp ops sdp = (leg₁, sdp₁)) {hold ok : Bool}
    (hout : leg₁.sendRequest ops env .INVITE (some sdp₁) 0 hold = (leg', ok))
    (hflag : flag ≠ .PreserveHoldStatus) (hkind : ∀ b, accepted flag b = hold) :
    Inv (if ok then leg' else leg'.offerRejected) := by
  obtain ⟨hst, hhold⟩ := hok
  have hprep := (updateLocalSdp_spec ops { leg with hold := flag } sdp).1
  -- the leg's own session description keeps the flag
  have hkept : ({ leg with hold := flag }.updateLocalSdp ops sdp).1.hold = flag := by
    rw [(updateLocalSdp_spec ..).2]
    unfold flagFor adjustOffer
    simp [hflag]
  rw [hres] at hprep hkept
  dsimp only at hkept
  have hoa := hprep.oa
  obtain ⟨req, hbody, hmethod, hout⟩ : ∃ req : AmSipRequest, req.body = toBody ops (some sdp₁) ∧
      req.method ≠ .ACK ∧ leg₁.transmit ops env req hold = (leg', ok) := ⟨_, rfl, by simp, hout⟩
  by_cases hgo : leg₁.offersNext = true ∧ env.send = .goes
  · obtain ⟨hsent, hoffers⟩ := transmit_offers hbody hgo.1 hmethod hgo.2
    rw [hout] at hsent hoffers
    obtain rfl : ok = true := hsent
    have hidle : Idle leg := h.idle (hprep.offersNext.symm.trans hgo.1)
    refine .inr ⟨_, hoffers.busy (hprep.outstanding.trans hidle.outstanding) ?_ ?_⟩
    · rw [hkept]
      exact hkind _
    · rw [hprep.onHold, hprep.completed]
      exact hidle.onHold
  · have hfails : (leg₁.transmit ops env req hold).2 = false :=
      transmit_fails hbody (hoa ▸ hst) hgo
    have hkeeps : _ ∧ KeepsPending True _ _ :=
      (transmit_sends hbody fun _ _ hack => absurd hack hmethod).2 hfails
    rw [hout] at hfails hkeeps
    obtain rfl : ok = false := hfails
    obtain ⟨hsame, hpending⟩ := hkeeps
    rw [hoa] at hpending
    exact h.same ⟨hhold.symm, hsame.onHold.trans hprep.onHold,
      hsame.outstanding.trans hprep.outstanding, hsame.completed.trans hprep.completed⟩ hpending

theorem Inv.putOnHoldImpl {sdp : Sdp} (hok : StepOk ops leg (env, .putOnHold sdp)) :
    Inv (leg.putOnHoldImpl ops env sdp).1 := by
  unfold HoldLeg.putOnHoldImpl
  split_ifs with honHold
  · exact h
  rcases hres : { leg with hold := .HoldRequested }.updateLocalSdp ops sdp with ⟨leg₁, sdp₁⟩
  rcases hout : leg₁.sendRequest ops env .INVITE (some sdp₁) 0 true with ⟨leg', ok⟩
  have hready := hok (Bool.eq_false_of_not_eq_true honHold)
  have hsent := h.requested hready hres hout nofun fun _ => rfl
  simp only [hres, hout]
  cases ok <;> exact hsent

theorem Inv.resumeHeldImpl (hok : StepOk ops leg (env, .resumeHeld)) :
    Inv (leg.resumeHeldImpl ops env).1 := by
  unfold HoldLeg.resumeHeldImpl
  dsimp only
  split_ifs with honHold hmedia
  · exact h
  · have hhold := (hok (Bool.eq_true_of_not_eq_false honHold)).2
    exact h.same ⟨hhold.symm, rfl, rfl, rfl⟩ fun _ hst => ⟨hst, rfl⟩
  rcases hres : { leg with hold := .ResumeRequested }.updateLocalSdp ops leg.nonHoldSdp with
    ⟨leg₁, sdp₁⟩
  rcases hout : leg₁.sendRequest ops env .INVITE (some sdp₁) 0 false with ⟨leg', ok⟩
  have hready := hok (Bool.eq_true_of_not_eq_false honHold)
  have hsent := h.requested hready hres hout nofun fun _ => rfl
  simp only [hres, hout]
  cases ok <;> exact hsent

theorem Inv.clearOa (hne : leg.outstanding ≠ [] → cseq ≠ leg.oa.cseq) :
    Inv (leg.clearOa ops cseq) := by
  rcases h with h | ⟨offer, h⟩
  · exact .inl (h.same (clearOa_sameHold ops leg cseq))
  · rw [clearOa_of_ne (hne (by simp [h.outstanding]))]
    exact .inr ⟨offer, h⟩

theorem Inv.setOther : Inv leg.setOther := by
  unfold HoldLeg.setOther
  split_ifs with hst
  · exact .inl ((h.idle (offersNext_iff.2 (.inr hst))).same ⟨rfl, rfl, rfl, rfl⟩)
  · exact h

end Steps

/-! ## Received messages -/

/-- Whether a body can be used does not depend on the description before. -/
theorem readSdp_snd (sdp : SdpOps Sdp) (remote remote' : Sdp) (body : AmMimeBody) :
    (readSdp sdp remote body).2 = (readSdp sdp remote' body).2 := by
  unfold readSdp
  cases body.hasContentType SIP_APPLICATION_SDP with
  | none => split_ifs <;> rfl
  | some part => rfl

section Idle

variable (h : Idle leg)
include h

theorem Idle.noteAnswer (msg : OaMsg) : Idle (leg.noteAnswer msg) := by
  refine ⟨?_, h.hold, ?_⟩
  · simp [HoldLeg.noteAnswer, h.outstanding]
  · simpa [HoldLeg.noteAnswer, h.outstanding] using h.onHold

theorem Idle.noteReject (reply : AmSipReply) : Idle (leg.noteReject reply) := by
  unfold HoldLeg.noteReject
  split_ifs
  · exact ⟨by simp [h.outstanding], h.hold, h.onHold⟩
  · exact h

theorem Idle.onSdpCompleted : Idle (leg.onSdpCompleted ops env) := by
  have honHold : accepted leg.hold leg.onHold = lastHold leg.completed := by
    rw [h.hold]
    exact h.onHold
  unfold HoldLeg.onSdpCompleted
  split_ifs <;> exact ⟨h.outstanding, rfl, honHold⟩

theorem Idle.checkStateChange : Idle (leg.checkStateChange ops env) := by
  unfold HoldLeg.checkStateChange
  split_ifs
  · exact h.onSdpCompleted
  · exact h

theorem Idle.onRxSdp (msg : OaMsg) (body : AmMimeBody) : Idle (leg.onRxSdp ops msg body) := by
  unfold HoldLeg.onRxSdp
  generalize leg.oa.onRxSdp ops.toSdpOps msg body = res
  obtain ⟨oa, _ | err⟩ := res
  · exact (h.same ⟨rfl, rfl, rfl, rfl⟩ : Idle { leg with oa := oa }).noteAnswer msg
  · exact { h with }

/-- The leg before a message is read. -/
abbrev saved (leg : HoldLeg Sdp) : HoldLeg Sdp :=
  { leg with oa := leg.oa.saveState }

theorem Idle.saved : Idle leg.saved :=
  { h with }

theorem Idle.rxRequest {req : AmSipRequest} : Idle (leg.rxRequest ops env req) := by
  have hbody : Idle (leg.saved.rxRequestBody ops req) := by
    unfold rxRequestBody
    split_ifs
    · split
      · exact h.saved.onRxSdp _ _
      · exact h.saved
    · exact h.saved
  unfold HoldLeg.rxRequest
  split_ifs
  · exact h
  · exact hbody.checkStateChange.same (clearOa_sameHold ..)
  · exact hbody.checkStateChange

variable {reply : AmSipReply}

theorem Idle.oaOnReplyIn : Idle (leg.oaOnReplyIn ops env reply) := by
  unfold HoldLeg.oaOnReplyIn
  split_ifs
  · exact { h with }
  · exact h.onSdpCompleted.noteAnswer _
  · exact h.noteAnswer _
  · exact (h.saved.onRxSdp _ _).checkStateChange
  · exact h

theorem Idle.rxReply : Idle (leg.rxReply ops env reply) := by
  have hreply : Idle ((leg.noteReject reply).oaOnReplyIn ops env reply) :=
    (h.noteReject reply).oaOnReplyIn
  unfold HoldLeg.rxReply
  split_ifs
  all_goals first
    | exact h
    | exact hreply
    | exact { hreply with }
    | exact hreply.same ⟨hreply.hold.symm, rfl, rfl, rfl⟩

end Idle

section Answer

variable {body : AmMimeBody} (h : Busy leg offer) (hsaved : leg.oa.savedState = .offerSent)
include h hsaved

/-- The answer to the outstanding offer. -/
theorem Busy.onRxSdp (hreads : (readSdp ops.toSdpOps ops.clear body).2 = none)
    (hanswers : msg.Answers offer.msg) :
    Idle ((leg.onRxSdp ops msg body).checkStateChange ops env) := by
  have hstate : ∃ leg', leg.onRxSdp ops msg body = leg' ∧ leg'.oa.state = .completed ∧
      leg'.oa.savedState = .offerSent ∧ leg'.outstanding = [] ∧
      leg'.completed = leg.completed ++ [offer] ∧ leg'.hold = leg.hold ∧
      leg'.onHold = leg.onHold := by
    refine ⟨_, rfl, ?_⟩
    rw [readSdp_snd _ _ leg.oa.sdpRemote] at hreads
    unfold HoldLeg.onRxSdp AmOfferAnswer.onRxSdp
    generalize readSdp ops.toSdpOps leg.oa.sdpRemote body = res at hreads ⊢
    obtain ⟨remote, err⟩ := res
    obtain rfl : err = none := hreads
    simp [h.state, HoldLeg.noteAnswer, h.outstanding, hanswers, setState, hsaved]
  obtain ⟨leg₁, hleg₁, hst, hsaved', hout, hcompl, hhold, honHold⟩ := hstate
  obtain ⟨leg₂, hleg₂, hhold', honHold', hout', hcompl', -⟩ :=
    checkStateChange_of_completed hst (by simp [hsaved'])
  rw [hleg₁, hleg₂]
  refine ⟨hout'.trans hout, hhold', ?_⟩
  rw [honHold', hcompl', hcompl, hhold, honHold, h.kind]
  simp [lastHold]

/-- A body that cannot be used. -/
theorem Busy.onRxSdp_unread (hreads : (readSdp ops.toSdpOps ops.clear body).2 ≠ none) :
    Busy ((leg.onRxSdp ops msg body).checkStateChange ops env) offer ∧
      ((leg.onRxSdp ops msg body).checkStateChange ops env).hold = leg.hold := by
  have hleg : leg.onRxSdp ops msg body =
      { leg with oa := { leg.oa with sdpRemote := ops.clear } } := by
    rw [readSdp_snd _ _ leg.oa.sdpRemote] at hreads
    unfold HoldLeg.onRxSdp AmOfferAnswer.onRxSdp
    generalize readSdp ops.toSdpOps leg.oa.sdpRemote body = res at hreads ⊢
    obtain ⟨remote, _ | err⟩ := res
    · exact absurd rfl hreads
    · rfl
  rw [hleg, checkStateChange_of_saved]
  · exact ⟨h.same ⟨rfl, rfl, rfl, rfl⟩ (fun _ hst => ⟨hst, rfl⟩) trivial, rfl⟩
  · exact hsaved.trans h.state.symm

end Answer

theorem Busy.saved (h : Busy leg offer) : Busy leg.saved offer :=
  { h with }

theorem Busy.rxRequest {req : AmSipRequest} (h : Busy leg offer)
    (hok : StepOk ops leg (env, .rxRequest req)) : Inv (leg.rxRequest ops env req) := by
  obtain ⟨hanswers, hack⟩ := hok offer (by simp [h.outstanding])
  unfold HoldLeg.rxRequest
  by_cases hinvite : req.method = .INVITE ∧ leg.offersNext = false
  · rw [if_pos hinvite]
    exact .inr ⟨offer, h⟩
  by_cases hreads : readsRequest ops req = true
  · -- the request has the answer
    have hidle : Idle ((leg.saved.rxRequestBody ops req).checkStateChange ops env) := by
      have hans := hanswers hreads
      simp only [readsRequest, Bool.and_eq_true, Bool.not_eq_true', any_eq_true] at hreads
      obtain ⟨⟨hcarries, hempty⟩, part, hpart, hread⟩ := hreads
      unfold rxRequestBody
      rw [if_pos ⟨hcarries, hempty⟩, hpart]
      exact h.saved.onRxSdp h.state (isNone_iff_eq_none.1 hread) hans
    split_ifs
    · exact .inl (hidle.same (clearOa_sameHold ..))
    · exact .inl hidle
  · have hreads := Bool.eq_false_of_not_eq_true hreads
    have hbusy : Busy ((leg.saved.rxRequestBody ops req).checkStateChange ops env) offer := by
      have hunchanged : Busy (leg.saved.checkStateChange ops env) offer := by
        rw [checkStateChange_of_saved (show leg.oa.saveState.savedState = _ from rfl)]
        exact h.saved
      unfold rxRequestBody
      split_ifs with hcarries
      · cases hpart : req.body.hasContentType SIP_APPLICATION_SDP with
        | none => exact hunchanged
        | some part =>
          refine (h.saved.onRxSdp_unread h.state fun hread => ?_).1
          simp [readsRequest, hcarries.1, hcarries.2, hpart, hread] at hreads
      · exact hunchanged
    split_ifs with hmethod
    · refine .inr ⟨offer, ?_⟩
      rw [clearOa_of_ne]
      · exact hbusy
      · rw [hbusy.cseq, ← h.cseq]
        exact hack hmethod hreads
    · exact .inr ⟨offer, hbusy⟩

/-- A reply that does not reject the offer has the answer, or the offer stays outstanding. -/
theorem Busy.oaOnReplyIn (env : LegEnv) (h : Busy leg offer)
    (hcseq : ¬ (300 ≤ reply.code ∧ reply.cseq = leg.oa.cseq))
    (hanswers : readsReply ops reply = true → (AmSipDialog.replyMsg reply true).Answers offer.msg) :
    Inv (leg.oaOnReplyIn ops env reply) ∧ (300 ≤ reply.code →
      (leg.oaOnReplyIn ops env reply).hold = leg.hold) := by
  have hstate : ¬ ((leg.oa.state = .completed ∨ leg.oa.state = .offerRecved) ∧
      reply.cseq = leg.oa.cseq) := by
    simp [h.state]
  unfold HoldLeg.oaOnReplyIn
  rw [if_neg hcseq]
  by_cases hhas : replyHasSdp reply = true
  · rw [if_pos hhas]
    rw [if_neg hstate]
    by_cases hread : (readSdp ops.toSdpOps ops.clear reply.body).2 = none
    · have hreads : readsReply ops reply = true := by simp [readsReply, hhas, hread]
      have hans := hanswers hreads
      refine ⟨.inl (h.saved.onRxSdp h.state hread hans), fun hcode => ?_⟩
      -- the answer is in the transaction of the offer
      have htrans : reply.cseq = offer.msg.cseq := by
        rcases hans.2 with htrans | hack
        · exact congrArg Prod.snd htrans
        · exact nomatch hack.2.1
      exact absurd ⟨hcode, htrans.trans h.cseq.symm⟩ hcseq
    · obtain ⟨hbusy, hhold⟩ := h.saved.onRxSdp_unread h.state hread
      exact ⟨.inr ⟨offer, hbusy⟩, fun _ => hhold⟩
  · rw [if_neg hhas]
    exact ⟨.inr ⟨offer, h⟩, fun _ => rfl⟩

/-- The offer is rejected. -/
theorem Busy.rejected (ops : LegSdpOps Sdp) (env : LegEnv) (h : Busy leg offer)
    (hcode : 300 ≤ reply.code) (hto : repliesTo reply offer = true)
    (hflag : leg.hold ≠ .PreserveHoldStatus → reply.cseqMethod = .INVITE) :
    Idle (leg.rxReply ops env reply) ∨ leg.rxReply ops env reply = leg := by
  unfold HoldLeg.rxReply
  by_cases hmem : reply.cseq ∉ leg.uacTrans
  · exact .inr (if_pos hmem)
  rw [if_neg hmem]
  have hcseq : reply.cseq = leg.oa.cseq := by
    simp only [repliesTo, decide_eq_true_eq] at hto
    exact hto.2.2.symm.trans h.cseq.symm
  have hreject : leg.noteReject reply = { leg with outstanding := [] } := by
    simp [noteReject, hcode, h.outstanding, hto]
  have hreply : (leg.noteReject reply).oaOnReplyIn ops env reply =
      { leg with outstanding := [], oa := leg.oa.clearTransitionalState ops.toSdpOps } := by
    rw [hreject]
    exact if_pos ⟨hcode, hcseq⟩
  rw [hreply]
  refine .inl ?_
  rw [if_pos ⟨(Nat.le_of_ble_eq_true rfl : 200 ≤ 300).trans hcode, .inr hcode⟩]
  split_ifs with hmethod
  · exact ⟨rfl, rfl, h.onHold⟩
  · have hhold := not_not.1 fun h => hmethod ⟨hcode, hflag h⟩
    exact ⟨rfl, hhold, h.onHold⟩

theorem Busy.rxReply (h : Busy leg offer) (hok : StepOk ops leg (env, .rxReply reply)) :
    Inv (leg.rxReply ops env reply) := by
  obtain ⟨hanswers, hown, hflag⟩ := hok offer (by simp [h.outstanding])
  by_cases hrejects : 300 ≤ reply.code ∧ repliesTo reply offer = true
  · rcases h.rejected ops env hrejects.1 hrejects.2
      fun hhold => (hflag hrejects.1 hhold).1 hrejects.2 with hidle | hsame
    · exact .inl hidle
    · rw [hsame]
      exact .inr ⟨offer, h⟩
  · have hreject : leg.noteReject reply = leg := by
      unfold noteReject
      split_ifs with hcode
      · have hto : ¬ repliesTo reply offer = true := fun hto => hrejects ⟨hcode, hto⟩
        have hfilter : (leg.outstanding.filter fun offer => ¬ repliesTo reply offer) =
            leg.outstanding := by
          rw [h.outstanding]
          simp [hto]
        rw [hfilter]
      · rfl
    have hcseq : ¬ (300 ≤ reply.code ∧ reply.cseq = leg.oa.cseq) := fun hc =>
      hrejects ⟨hc.1, hown hc.1 hc.2⟩
    obtain ⟨hinv, hhold⟩ := h.oaOnReplyIn env hcseq hanswers
    -- the flag of an offer is not taken back for a reply to another INVITE
    have hkept : 300 ≤ reply.code ∧ reply.cseqMethod = .INVITE →
        (leg.oaOnReplyIn ops env reply).hold = .PreserveHoldStatus := by
      intro hc
      rw [hhold hc.1]
      exact not_not.1 fun hne => hrejects ⟨hc.1, (hflag hc.1 hne).2 hc.2⟩
    unfold HoldLeg.rxReply
    rw [hreject]
    dsimp only
    split_ifs with hmem hfinal hinvite hinvite
    all_goals first
      | exact .inr ⟨offer, h⟩
      | exact hinv.same ⟨rfl, rfl, rfl, rfl⟩ fun _ hst => ⟨hst, rfl⟩
      | exact hinv.same ⟨(hkept hinvite).symm, rfl, rfl, rfl⟩ fun _ hst => ⟨hst, rfl⟩

/-! ## Runs -/

theorem inv_init : Inv (init ops cseq) :=
  .inl ⟨rfl, rfl, rfl⟩

theorem Inv.step {ev : LegEnv × HoldEv Sdp} (h : Inv leg) (hok : StepOk ops leg ev) :
    Inv (leg.step ops ev) := by
  obtain ⟨env, ev⟩ := ev
  cases ev with
  | putOnHold sdp => exact h.putOnHoldImpl hok
  | resumeHeld => exact h.resumeHeldImpl hok
  | relaySip method cseq sdp rackCseq => exact h.relaySip hok
  | reinvite sdp => exact h.reinvite hok
  | relayReply method cseq code sdp => exact h.relayReply hok
  | rxRequest req =>
    rcases h with h | ⟨offer, h⟩
    · exact .inl h.rxRequest
    · exact h.rxRequest hok
  | rxReply reply =>
    rcases h with h | ⟨offer, h⟩
    · exact .inl h.rxReply
    · exact h.rxReply hok
  | noAck cseq => exact h.clearOa hok
  | setOther => exact h.setOther

theorem Inv.holdOk (h : Inv leg) : HoldOk leg := by
  intro hout
  rcases h with h | ⟨offer, h⟩
  · refine ⟨h.hold, ?_⟩
    rw [h.onHold, lastHold, any_eq_true]
  · rw [h.outstanding] at hout
    simp at hout

/-- In a run of such steps the two flags are right in every state. -/
theorem run_holdOk (ops : LegSdpOps Sdp) (cseq : BitVec 32) {evs : List (LegEnv × HoldEv Sdp)}
    (hok : RunOk (step ops) (StepOk ops) (init ops cseq) evs) : HoldOk (run ops cseq evs) :=
  (hok.inv (fun h hstep => h.step hstep) inv_init).holdOk

/-- Session descriptions as their streams, active or not. A hold request has no active one. -/
def streams : LegSdpOps (List Bool) where
  clear := []
  parse payload :=
    match payload with
    | none => ([], true)
    | some text => (text.tail.map (· == '+'), false)
  mediaEmpty := List.isEmpty
  print sdp := 'v' :: sdp.map fun active => if active then '+' else '-'
  print_ne_nil := by simp
  isHoldRequest sdp := sdp.all (!·)
  alterHoldRequest := id
  alterResumeRequest := id
  relaySdp := id

/-- A final reply, with an active stream in it if it is positive. -/
def finalReply (method : SipMethod) (cseq : BitVec 32) (code : ℕ) : AmSipReply where
  code := code
  cseqMethod := method
  cseq := cseq
  rseq := 0
  toTag := []
  hdrs := []
  body := toBody streams (if code < 300 then some [true] else none)

/-- The messages go out. -/
def sending : LegEnv := ⟨.goes, false⟩

/-- A call that is set up with CSeq 10. -/
def callSetup : List (LegEnv × HoldEv (List Bool)) :=
  [(sending, .reinvite (some [true])), (sending, .rxReply (finalReply .INVITE 10 200)),
    (sending, .relaySip .ACK 10 none 0)]

/-- The leg puts the remote party on hold, which accepts. -/
def heldCall : List (LegEnv × HoldEv (List Bool)) :=
  callSetup ++ [(sending, .putOnHold [false]), (sending, .rxReply (finalReply .INVITE 11 200))]

theorem run_holdOk_heldCall :
    (run streams 10 heldCall).onHold = true ∧ HoldOk (run streams 10 heldCall) := by
  have hok : RunOk (step streams) (StepOk streams) (init streams 10) heldCall := by
    refine ⟨fun _ => rfl, ?_, ⟨fun hc => absurd hc (by decide +kernel), fun _ hne => ?_⟩,
      fun _ => ⟨by decide +kernel, by decide +kernel⟩, ?_, trivial⟩
    · show ∀ offer ∈ _, _
      decide +kernel
    · exact absurd (by decide +kernel) hne
    · show ∀ offer ∈ _, _
      decide +kernel
  exact ⟨by decide +kernel, run_holdOk streams 10 hok⟩

/-- An UPDATE of the other leg asks for hold and is rejected : the flag stays. -/
theorem run_updateRejected :
    ¬ ∀ evs : List (LegEnv × HoldEv (List Bool)), HoldOk (run streams 10 evs) := by
  intro h
  have hhold := (h (callSetup ++ [(sending, .relaySip .UPDATE 0 (some [false]) 0),
    (sending, .rxReply (finalReply .UPDATE 11 488))]) (by decide +kernel)).1
  exact absurd hhold (by decide +kernel)

end HoldLeg

end Sems
