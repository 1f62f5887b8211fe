import Sems.DialogWalk

/-!
# The client side of a dialog

What `AmBasicSipDialog` keeps of the requests it sends : the CSeq of the next one, and the method
of each that is open (`uac_trans`). A request takes the CSeq, and an ACK closes its INVITE
(`onRequestTxed`). A final reply closes any other request.

`AmSipDialog.uac` is this side of the dialog, and `uac_transmit` what a request does to it.
-/

namespace Sems

/-- The client side of a dialog. -/
structure UacState where
  cseq : BitVec 32
  trans : OrdMap ℤ SipMethod

/-- What goes out on the client side. An ACK has the key of its INVITE in the map. -/
inductive ClientOp where
  | request (method : SipMethod)
  | ack (key : ℤ)

namespace UacState

/-- `onRequestTxed`. -/
def send (u : UacState) : ClientOp → UacState
  | .request method => { cseq := u.cseq + 1, trans := u.trans.insert u.cseq.toInt method }
  | .ack key => { u with trans := u.trans.erase key }

/-- The end of `onRxReply` : a final reply closes the request, but a 2xx waits for the ACK. -/
def onFinal (u : UacState) (reply : AmSipReply) : UacState :=
  if 200 ≤ reply.code ∧ (reply.cseqMethod ≠ .INVITE ∨ 300 ≤ reply.code) then
    { u with trans := u.trans.erase reply.cseq.toInt }
  else u

end UacState

open UacState

namespace AmSipDialog

variable {Sdp : Type*} (env : DlgEnv Sdp) (d : AmSipDialog Sdp)

/-- The client side of the dialog. -/
def uac (d : AmSipDialog Sdp) : UacState where
  cseq := d.cseq
  trans := d.uacTrans.map AmSipRequest.method

theorem uac_of_trans {d d' : AmSipDialog Sdp} (h : d'.trans = d.trans) : d'.uac = d.uac :=
  congrArg (fun t => UacState.mk t.cseq (t.uacTrans.map AmSipRequest.method)) h

variable {req : AmSipRequest}

/-- A request goes out as it is, but for its headers and its body. -/
theorem onTxRequest_ok {env : DlgEnv Sdp} {d d' : AmSipDialog Sdp} {req' : AmSipRequest}
    (h : d.onTxRequest env req = (d', .ok req')) :
    req'.method = req.method ∧ req'.cseq = req.cseq := by
  obtain ⟨hdrs, hreq⟩ := d.rel100.onRequestOut_eq req
  by_cases hr : d.OaRefusesRequest env req
  · rw [onTxRequest_refuses env hr] at h
    exact nomatch h
  by_cases hc : d.OaCrashesOn env req
  · obtain ⟨d'', heq⟩ := onTxRequest_crashes env hc
    rw [heq] at h
    exact nomatch h
  have hr' : ¬ d.OaRefusesRequest env { req with hdrs := hdrs } := hr
  have hc' : ¬ d.OaCrashesOn env { req with hdrs := hdrs } := hc
  obtain ⟨oa', body, heq, -⟩ := oaOnRequestOut_accepts hr' hc'
  simp only [onTxRequest, hreq, heq, Prod.mk.injEq, OaTx.ok.injEq] at h
  obtain ⟨-, rfl⟩ := h
  exact ⟨rfl, rfl⟩

/-- What a request is for the client side. -/
def clientOp (req : AmSipRequest) : ClientOp :=
  if req.method = .ACK then .ack req.cseq.toInt else .request req.method

theorem trans_onRequestTxed (d : AmSipDialog Sdp) (req : AmSipRequest) :
    (d.onRequestTxed env req).trans = AmSipDialog.trans (if req.method ≠ .ACK then
      { d with uacTrans := TransMap.set d.uacTrans req.cseq req, cseq := d.cseq + 1 }
      else { d with uacTrans := TransMap.remove d.uacTrans req.cseq }) := by
  have hsent : ∀ d' : AmSipDialog Sdp,
      (if d'.offeranswerEnabled then d'.oaOnRequestSent env req else d').trans = d'.trans := by
    intro d'
    split_ifs
    · exact trans_oaOnRequestSent env d' req
    · rfl
  exact hsent _

variable {d}

variable (hreq : req.method ≠ .ACK → req.cseq = d.cseq)

include hreq

theorem uac_onRequestTxed : (d.onRequestTxed env req).uac = d.uac.send (clientOp req) := by
  rw [uac_of_trans (trans_onRequestTxed env d req)]
  by_cases hack : req.method = .ACK
  · rw [if_neg (not_not.2 hack), clientOp, if_pos hack]
    simp only [uac, send, TransMap.remove, OrdMap.map_erase]
  · rw [if_pos hack, clientOp, if_neg hack]
    simp only [uac, send, TransMap.set, OrdMap.map_insert, hreq hack]

/-- The request or ACK goes out if `transmit` returns no error, and nothing happens otherwise. -/
theorem uac_transmit :
    (d.transmit env req).uac =
      if d.transmitResult env req = .sent then d.uac.send (clientOp req) else d.uac := by
  have hframe := uac_of_trans (trans_onTxRequest env d req)
  unfold transmit transmitResult
  cases hres : d.onTxRequest env req with
  | mk d' res =>
    rw [hres] at hframe
    cases res with
    | ok req' =>
      obtain ⟨hm, hc⟩ := onTxRequest_ok hres
      have hreq' : req'.method ≠ .ACK → req'.cseq = d'.cseq := by
        rw [hm, hc, show d'.cseq = d.cseq from congrArg UacState.cseq hframe]
        exact hreq
      cases hs : env.sendsRequest req' with
      | true => simp only [hs, if_true, uac_onRequestTxed env hreq', hframe, clientOp, hm, hc]
      | false => simpa [hs] using hframe
    | refused | crashed => simpa using hframe

end AmSipDialog

end Sems
