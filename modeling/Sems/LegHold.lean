import Sems.DialogOffers

/-!
# The hold state of a call leg

A call leg of the SBC (`apps/sbc/CallLeg.cpp`) remembers in `hold` what its last offer asks of
the remote party, and in `onHold` whether that is on hold. The flag is set when the offer is
prepared, by `putOnHoldImpl`, `resumeHeldImpl` or `adjustOffer`, taken back by `offerRejected` and
turned into `onHold` by `onSdpCompleted`.

A leg gives no session description of its own to the offer/answer engine (`legHandler`), so a body
that is sent is empty or holds the description that went through `updateLocalSdp`.

`LegEnv` is what comes from outside during a step. `outstanding` and `completed` are a log : the
offers that were neither answered nor rejected, and those that were answered.
-/

namespace Sems

/-- What the pending offer does to the hold state. -/
inductive HoldStatus where
  | HoldRequested
  | ResumeRequested
  | PreserveHoldStatus
  deriving DecidableEq

/-- `alterHoldRequest` and `alterResumeRequest` are virtual functions, and `relaySdp` is
`AmB2BSession::updateLocalSdp`. -/
structure LegSdpOps (Sdp : Type*) extends SdpOps Sdp where
  isHoldRequest : Sdp → Bool
  alterHoldRequest : Sdp → Sdp
  alterResumeRequest : Sdp → Sdp
  relaySdp : Sdp → Sdp

/-- What becomes of a message : it does not come to the engine (not connected, no transaction), it
fails after that, or it goes out. -/
inductive SendOutcome where
  | refused
  | fails
  | goes
  deriving DecidableEq

/-- `sdpFails` is the verdict of `AmB2BSession::onSdpCompleted`. -/
structure LegEnv where
  send : SendOutcome
  sdpFails : Bool

/-- An offer of the leg, and whether it puts the remote party on hold. -/
structure HoldOffer where
  msg : OaMsg
  hold : Bool
  deriving DecidableEq

/-- A leg, with its offers in the order they went out. -/
structure HoldLeg (Sdp : Type*) where
  oa : AmOfferAnswer Sdp
  cseq : BitVec 32
  uacTrans : Finset (BitVec 32)
  hold : HoldStatus
  onHold : Bool
  nonHoldSdp : Sdp
  outstanding : List HoldOffer
  completed : List HoldOffer

instance (m offer : OaMsg) : Decidable (m.Answers offer) := by
  unfold OaMsg.Answers OaMsg.Acknowledges
  infer_instance

namespace HoldLeg

variable {Sdp : Type*} (ops : LegSdpOps Sdp) (env : LegEnv)

/-- A new leg. -/
def init (cseq : BitVec 32) : HoldLeg Sdp where
  oa := AmOfferAnswer.init ops.toSdpOps
  cseq := cseq
  uacTrans := ∅
  hold := .PreserveHoldStatus
  onHold := false
  nonHoldSdp := ops.clear
  outstanding := []
  completed := []

/-- The methods with session descriptions. -/
def carriesSdp (method : SipMethod) : Bool :=
  method = .INVITE ∨ method = .UPDATE ∨ method = .ACK ∨ method = .PRACK

/-! ## Preparing a session description -/

variable (leg : HoldLeg Sdp)

/-- `adjustOffer` : an offer of the other leg may hold or resume. -/
def adjustOffer (sdp : Sdp) : HoldLeg Sdp × Sdp :=
  -- the leg's own hold and resume requests are right as they are
  if leg.hold ≠ .PreserveHoldStatus then (leg, sdp)
  else if ops.isHoldRequest sdp then
    ({ leg with hold := .HoldRequested }, ops.alterHoldRequest sdp)
  else if leg.onHold then ({ leg with hold := .ResumeRequested }, ops.alterResumeRequest sdp)
  else (leg, sdp)

/-- The engine takes the next session description for an offer. -/
def offersNext : Bool :=
  leg.oa.state = .none ∨ leg.oa.state = .completed

/-- The session description to resume with, from `updateLocalSdp`. -/
def storeNonHoldSdp (sdp : Sdp) : HoldLeg Sdp :=
  if leg.hold = .PreserveHoldStatus ∧ leg.onHold = false then { leg with nonHoldSdp := sdp }
  else leg

/-- `updateLocalSdp`. -/
def updateLocalSdp (sdp : Sdp) : HoldLeg Sdp × Sdp :=
  let (leg, sdp) := if leg.offersNext then leg.adjustOffer ops sdp else (leg, sdp)
  (leg.storeNonHoldSdp sdp, ops.relaySdp sdp)

/-- `updateLocalBody`, for a body that may be missing. -/
def updateLocalBody (sdp : Option Sdp) : HoldLeg Sdp × Option Sdp :=
  match sdp with
  | none => (leg, none)
  | some sdp => ((leg.updateLocalSdp ops sdp).1, some (leg.updateLocalSdp ops sdp).2)

/-- What `relaySip` does with the body of a request or of the reply to it. -/
def relayBody (method : SipMethod) (sdp : Option Sdp) : HoldLeg Sdp × Option Sdp :=
  if carriesSdp method then leg.updateLocalBody ops sdp else (leg, sdp)

/-- The body of a message. -/
def toBody (sdp : Option Sdp) : AmMimeBody :=
  match sdp with
  | none => .none
  | some sdp => AmOfferAnswer.sdpBody (ops.print sdp)

/-! ## The end of an offer -/

/-- `offerRejected`. -/
def offerRejected : HoldLeg Sdp :=
  { leg with hold := .PreserveHoldStatus }

/-- `holdAccepted` and `resumeAccepted`. -/
def accepted : HoldStatus → Bool → Bool
  | .HoldRequested, _ => true
  | .ResumeRequested, _ => false
  | .PreserveHoldStatus, onHold => onHold

/-- The dialog clears the engine if the handler fails. -/
def onSdpCompleted : HoldLeg Sdp :=
  let leg := { leg with onHold := accepted leg.hold leg.onHold, hold := .PreserveHoldStatus }
  if env.sdpFails then { leg with oa := leg.oa.clear ops.toSdpOps } else leg

/-- `AmOfferAnswer::checkStateChange`. -/
def checkStateChange : HoldLeg Sdp :=
  if leg.oa.savedState ≠ leg.oa.state ∧ leg.oa.state = .completed then leg.onSdpCompleted ops env
  else leg

/-- `AmOfferAnswer::clearTransitionalState`, if the CSeq is the one of the exchange. -/
def clearOa (cseq : BitVec 32) : HoldLeg Sdp :=
  if cseq = leg.oa.cseq then { leg with oa := leg.oa.clearTransitionalState ops.toSdpOps } else leg

/-! ## The log -/

/-- A message went out : if the engine waits for an answer since then, it was an offer. -/
def noteOffer (before : OAState) (offer : HoldOffer) : HoldLeg Sdp :=
  if leg.oa.state = .offerSent ∧ before ≠ .offerSent then
    { leg with outstanding := leg.outstanding ++ [offer] }
  else leg

/-- The offers that a session description answers. -/
def noteAnswer (msg : OaMsg) : HoldLeg Sdp :=
  { leg with
    outstanding := leg.outstanding.filter fun offer => ¬ msg.Answers offer.msg
    completed := leg.completed ++ leg.outstanding.filter fun offer => msg.Answers offer.msg }

variable (reply : AmSipReply)

/-- The reply is to the request with the offer. -/
def repliesTo (offer : HoldOffer) : Bool :=
  offer.msg.isReply = false ∧ offer.msg.method = reply.cseqMethod ∧ offer.msg.cseq = reply.cseq

/-- The offers that a negative final reply rejects. -/
def noteReject : HoldLeg Sdp :=
  if 300 ≤ reply.code then
    { leg with outstanding := leg.outstanding.filter fun offer => ¬ repliesTo reply offer }
  else leg

/-! ## Sending -/

/-- `CallLeg::getSdpOffer` and `CallLeg::getSdpAnswer` give nothing. -/
def legHandler : SdpHandler Sdp where
  getSdpOffer sdpLocal := (false, sdpLocal)
  getSdpAnswer _ sdpLocal := (false, sdpLocal)
  onSdpCompleted _ _ := false

variable (req : AmSipRequest)

/-- The engine after a request went out. -/
def onRequestTxed : HoldLeg Sdp :=
  let leg := if req.method ≠ .ACK then
      { leg with uacTrans := insert req.cseq leg.uacTrans, cseq := leg.cseq + 1 }
    else { leg with uacTrans := leg.uacTrans.erase req.cseq }
  let leg := leg.checkStateChange ops env
  if req.method = .ACK then leg.clearOa ops req.cseq else leg

/-- The common part of `sendRequest` and `send_200_ack`. Returns whether the request went
out. -/
def transmit (hold : Bool) : HoldLeg Sdp × Bool :=
  if env.send = .refused then (leg, false)
  else
    let msg := AmSipDialog.requestMsg req false
    match leg.oa.onRequestOut ops.toSdpOps (some legHandler) msg req with
    | (oa, .ok req) =>
      if env.send = .goes then
        (({ leg with oa := oa }.onRequestTxed ops env req).noteOffer leg.oa.state ⟨msg, hold⟩, true)
      else ({ leg with oa := oa }, false)
    | (oa, _) => ({ leg with oa := oa }, false)

variable (method : SipMethod) (cseq : BitVec 32) (sdp : Option Sdp)

/-- A request with the next CSeq. -/
def sendRequest (rackCseq : BitVec 32) (hold : Bool) : HoldLeg Sdp × Bool :=
  leg.transmit ops env
    { method := method, cseq := leg.cseq, rseq := 0, rackCseq := rackCseq, callid := [],
      fromTag := [], hdrs := [], body := toBody ops sdp } hold

/-- The ACK of an INVITE that is still open. -/
def send200Ack (hold : Bool) : HoldLeg Sdp × Bool :=
  if cseq ∉ leg.uacTrans then (leg, false)
  else
    leg.transmit ops env
      { method := .ACK, cseq := cseq, rseq := 0, rackCseq := 0, callid := [], fromTag := [],
        hdrs := [], body := toBody ops sdp } hold

/-- The engine after a reply went out. -/
def onReplyTxed : HoldLeg Sdp :=
  let leg := leg.checkStateChange ops env
  if 200 ≤ reply.code ∧ reply.cseqMethod ≠ .CANCEL ∧ reply.cseqMethod ≠ .INVITE then
    leg.clearOa ops reply.cseq
  else leg

/-- `AmBasicSipDialog::reply`. -/
def sendReply (hold : Bool) : HoldLeg Sdp × Bool :=
  if env.send = .refused then (leg, false)
  else
    let msg := AmSipDialog.replyMsg reply false
    match leg.oa.onReplyOut ops.toSdpOps (some legHandler) msg reply with
    | (oa, .ok reply) =>
      if env.send = .goes then
        (({ leg with oa := oa }.onReplyTxed ops env reply).noteOffer leg.oa.state ⟨msg, hold⟩, true)
      else ({ leg with oa := oa }, false)
    | (oa, _) => ({ leg with oa := oa }, false)

/-! ## Hold and resume -/

/-- `sdp` is what `createHoldRequest` gives. Returns the CSeq of the request. -/
def putOnHoldImpl (sdp : Sdp) : HoldLeg Sdp × Option (BitVec 32) :=
  if leg.onHold then (leg, none)
  else
    let (leg, sdp) := { leg with hold := .HoldRequested }.updateLocalSdp ops sdp
    match leg.sendRequest ops env .INVITE (some sdp) 0 true with
    | (leg, true) => (leg, some (leg.cseq - 1))
    | (leg, false) => (leg.offerRejected, none)

/-- The offer to resume, and its CSeq if it went out. -/
def resumeHeldImpl : HoldLeg Sdp × Option (BitVec 32) :=
  if leg.onHold = false then (leg, none)
  else
    let leg := { leg with hold := .ResumeRequested }
    -- `createResumeRequest` throws if there is no session description to resume with
    if ops.mediaEmpty leg.nonHoldSdp then (leg.offerRejected, none)
    else
      let (leg, sdp) := leg.updateLocalSdp ops leg.nonHoldSdp
      match leg.sendRequest ops env .INVITE (some sdp) 0 false with
      | (leg, true) => (leg, some (leg.cseq - 1))
      | (leg, false) => (leg.offerRejected, none)

/-! ## Session descriptions of the other leg -/

/-- A session description of the other leg puts on hold. -/
def holds : Bool :=
  sdp.any ops.isHoldRequest

/-- `AmB2BSession::relaySip` for a request. An ACK goes to the INVITE with `cseq`. -/
def relaySip (rackCseq : BitVec 32) : HoldLeg Sdp :=
  let (leg, body) := leg.relayBody ops method sdp
  if method ≠ .ACK then (leg.sendRequest ops env method body rackCseq (holds ops sdp)).1
  else (leg.send200Ack ops env cseq body (holds ops sdp)).1

/-- `CallLeg::reinvite`, `CallLeg::onB2BConnect` and `AmB2BSession::sendEstablishedReInvite`. -/
def reinvite : HoldLeg Sdp :=
  let (leg, body) := leg.updateLocalBody ops sdp
  (leg.sendRequest ops env .INVITE body 0 (holds ops sdp)).1

/-- `AmB2BSession::relaySip` for a reply, and `CallLeg::acceptPendingInvite`. -/
def relayReply (code : ℕ) (sdp : Option Sdp) : HoldLeg Sdp :=
  let (leg, body) := leg.relayBody ops method sdp
  (leg.sendReply ops env
    { code := code, cseqMethod := method, cseq := cseq, rseq := 0, toTag := [], hdrs := [],
      body := toBody ops body } (holds ops sdp)).1

/-- `setOther` with `forward` : the session description of the new leg is to be accepted. -/
def setOther : HoldLeg Sdp :=
  if leg.oa.state = .completed then { leg with oa := leg.oa.setState .offerRecved none } else leg

/-! ## Receiving -/

/-- The engine reads a session description. -/
def onRxSdp (leg : HoldLeg Sdp) (msg : OaMsg) (body : AmMimeBody) : HoldLeg Sdp :=
  match leg.oa.onRxSdp ops.toSdpOps msg body with
  | (oa, none) => { leg with oa := oa }.noteAnswer msg
  | (oa, some _) => { leg with oa := oa }

/-- The body of a received request. -/
def rxRequestBody : HoldLeg Sdp :=
  if carriesSdp req.method ∧ req.body.empty = false then
    match req.body.hasContentType SIP_APPLICATION_SDP with
    | some part => leg.onRxSdp ops (AmSipDialog.requestMsg req true) part
    | none => leg
  else leg

/-- A received request. An INVITE gets 491 while an offer is pending. -/
def rxRequest : HoldLeg Sdp :=
  if req.method = .INVITE ∧ leg.offersNext = false then leg
  else
    let leg := { leg with oa := leg.oa.saveState }.rxRequestBody ops req
    let leg := leg.checkStateChange ops env
    if req.method = .ACK then leg.clearOa ops req.cseq else leg

/-- The body of the reply is for the engine. -/
def replyHasSdp : Bool :=
  (reply.cseqMethod = .INVITE ∨ reply.cseqMethod = .UPDATE ∨ reply.cseqMethod = .PRACK) ∧
    reply.body.empty = false ∧
    ((reply.body.hasContentType SIP_APPLICATION_SDP).isSome ∨ AmOfferAnswer.hasCsta reply.body)

/-- `AmOfferAnswer::onReplyIn`. -/
def oaOnReplyIn : HoldLeg Sdp :=
  if 300 ≤ reply.code ∧ reply.cseq = leg.oa.cseq then
    { leg with oa := leg.oa.clearTransitionalState ops.toSdpOps }
  else if replyHasSdp reply then
    let msg := AmSipDialog.replyMsg reply true
    if (leg.oa.state = .completed ∨ leg.oa.state = .offerRecved) ∧ reply.cseq = leg.oa.cseq then
      -- a session description repeated within the transaction
      (if reply.code = 200 then leg.onSdpCompleted ops env else leg).noteAnswer msg
    else ({ leg with oa := leg.oa.saveState }.onRxSdp ops msg reply.body).checkStateChange ops env
  else leg

/-- A received reply, from `AmBasicSipDialog::onRxReply` to `CallLeg::onSipReply`. -/
def rxReply : HoldLeg Sdp :=
  if reply.cseq ∉ leg.uacTrans then leg
  else
    let leg := (leg.noteReject reply).oaOnReplyIn ops env reply
    let leg := if 300 ≤ reply.code ∧ reply.cseqMethod = .INVITE then leg.offerRejected else leg
    if 200 ≤ reply.code ∧ (reply.cseqMethod ≠ .INVITE ∨ 300 ≤ reply.code) then
      { leg with uacTrans := leg.uacTrans.erase reply.cseq }
    else leg

end HoldLeg

/-- What happens to a leg. -/
inductive HoldEv (Sdp : Type*) where
  | putOnHold (sdp : Sdp)
  | resumeHeld
  | relaySip (method : SipMethod) (cseq : BitVec 32) (sdp : Option Sdp) (rackCseq : BitVec 32)
  | reinvite (sdp : Option Sdp)
  | relayReply (method : SipMethod) (cseq : BitVec 32) (code : ℕ) (sdp : Option Sdp)
  | rxRequest (req : AmSipRequest)
  | rxReply (reply : AmSipReply)
  | noAck (cseq : BitVec 32)
  | setOther

namespace HoldLeg

variable {Sdp : Type*} (ops : LegSdpOps Sdp)

/-- A call from outside. -/
def step (leg : HoldLeg Sdp) (ev : LegEnv × HoldEv Sdp) : HoldLeg Sdp :=
  match ev.2 with
  | .putOnHold sdp => (leg.putOnHoldImpl ops ev.1 sdp).1
  | .resumeHeld => (leg.resumeHeldImpl ops ev.1).1
  | .relaySip method cseq sdp rackCseq => leg.relaySip ops ev.1 method cseq sdp rackCseq
  | .reinvite sdp => leg.reinvite ops ev.1 sdp
  | .relayReply method cseq code sdp => leg.relayReply ops ev.1 method cseq code sdp
  | .rxRequest req => leg.rxRequest ops ev.1 req
  | .rxReply reply => leg.rxReply ops ev.1 reply
  | .noAck cseq => leg.clearOa ops cseq
  | .setOther => leg.setOther

/-- A leg from its start on. -/
def run (cseq : BitVec 32) (evs : List (LegEnv × HoldEv Sdp)) : HoldLeg Sdp :=
  evs.foldl (step ops) (init ops cseq)

end HoldLeg

end Sems
