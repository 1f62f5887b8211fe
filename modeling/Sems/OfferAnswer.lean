import Sems.Rel100

/-!
# The offer/answer engine

`AmOfferAnswer` (`core/AmOfferAnswer.cpp`) follows the exchange of session descriptions in a
dialog. An offer is pending in the states `offerRecved` and `offerSent`, and `cseq` is the
CSeq of the message that carried it. `SdpOps` is what the engine needs of a session description
(`core/AmSdp.cpp`), `SdpHandler` the event handler of the dialog.

Every change of the state goes through `setState`, which here also writes it to `trace`. The main
result is `onRxSdp_error` : a received session description that is refused changes neither the state
nor the local description, and one that cannot be used leaves no remote description.
-/

namespace Sems

/-- `AmOfferAnswer::OAState`. -/
inductive OAState where
  | none
  | offerRecved
  | offerSent
  | completed
  deriving DecidableEq

/-- What the engine sees of a session description. `parse` returns the value and whether it failed.
-/
structure SdpOps (Sdp : Type*) where
  clear : Sdp
  parse : Option Str → Sdp × Bool
  mediaEmpty : Sdp → Bool
  print : Sdp → Str
  print_ne_nil : ∀ s, print s ≠ []

/-- The handler. `getSdpOffer` and `getSdpAnswer` return their verdict and the local description as
they leave it, `onSdpCompleted` whether it failed. -/
structure SdpHandler (Sdp : Type*) where
  getSdpOffer : Sdp → Bool × Sdp
  getSdpAnswer : Sdp → Sdp → Bool × Sdp
  onSdpCompleted : Sdp → Sdp → Bool

/-- The message that has the session description. `rack` is the CSeq number in the RAck header of a
PRACK. -/
structure OaMsg where
  received : Bool
  isReply : Bool
  method : SipMethod
  cseq : BitVec 32
  rack : Option (BitVec 32)
  deriving DecidableEq

/-- A change of the state. `msg` is the message with the session description, if it was not a
reset. -/
structure OaChange where
  before : OAState
  after : OAState
  msg : Option OaMsg
  deriving DecidableEq

/-- The engine, with the changes of its state. -/
structure AmOfferAnswer (Sdp : Type*) where
  state : OAState
  savedState : OAState
  cseq : BitVec 32
  sdpRemote : Sdp
  sdpLocal : Sdp
  trace : List OaChange

/-- An error code with its text. -/
structure OaError where
  code : ℕ
  text : Str
  deriving DecidableEq

/-- The outcome of `onRequestOut` and `onReplyOut` : the message to be sent, or -1. A null pointer
is used when no new part could be added to a request. -/
inductive OaTx (M : Type*) where
  | ok (msg : M)
  | refused
  | crashed

namespace AmOfferAnswer

variable {Sdp : Type*} (sdp : SdpOps Sdp)

/-- A new engine. -/
def init : AmOfferAnswer Sdp where
  state := .none
  savedState := .none
  cseq := 0
  sdpRemote := sdp.clear
  sdpLocal := sdp.clear
  trace := []

variable (oa : AmOfferAnswer Sdp)

/-- The state changes by a message, or by itself. -/
def setState (st : OAState) (msg : Option OaMsg) : AmOfferAnswer Sdp :=
  { oa with state := st, trace := oa.trace ++ [⟨oa.state, st, msg⟩] }

/-- The state before a message. -/
def saveState : AmOfferAnswer Sdp :=
  { oa with savedState := oa.state }

/-- The exchange is forgotten. -/
def clear (oa : AmOfferAnswer Sdp) : AmOfferAnswer Sdp :=
  { oa.setState .none none with cseq := 0, sdpRemote := sdp.clear, sdpLocal := sdp.clear }

/-- An exchange that is not complete is forgotten. -/
def clearTransitionalState : AmOfferAnswer Sdp :=
  if oa.state ≠ .completed then oa.clear sdp else oa

/-- For a body without a session description. -/
def errNoSdp : OaError := ⟨400, "sdp body part not found".toList⟩

/-- For one that cannot be read. -/
def errParse : OaError := ⟨400, "session description parsing failed".toList⟩

/-- For one without media. -/
def errNoMedia : OaError := ⟨400, "no media line found in SDP message".toList⟩

/-- For an offer while another is pending. -/
def errPending : OaError := ⟨400, "pending SDP offer".toList⟩

/-- The first part of `onRxSdp` : the remote description after the body was read, and the error if
it cannot be used. A body for CSTA without a session description is left alone. -/
def readSdp (sdpRemote : Sdp) (body : AmMimeBody) : Sdp × Option OaError :=
  match body.hasContentType SIP_APPLICATION_SDP with
  | none =>
    if !body.empty && (body.hasContentType SIP_APPLICATION_CSTA).isNone then
      (sdpRemote, some errNoSdp)
    else (sdpRemote, none)
  | some part =>
    let (remote, failed) := sdp.parse part.getPayload
    if failed then (remote, some errParse)
    else if sdp.mediaEmpty remote then (remote, some errNoMedia)
    else (remote, none)

variable (msg : OaMsg) (body : AmMimeBody)

/-- A received body is an offer, or the answer to ours. -/
def onRxSdp : AmOfferAnswer Sdp × Option OaError :=
  match readSdp sdp oa.sdpRemote body with
  | (_, some err) => ({ oa with sdpRemote := sdp.clear }, some err)
  | (remote, none) =>
    let oa := { oa with sdpRemote := remote }
    match oa.state with
    | .none => ({ oa.setState .offerRecved (some msg) with cseq := msg.cseq }, none)
    | .completed => ({ oa.setState .offerRecved (some msg) with cseq := msg.cseq }, none)
    | .offerSent => (oa.setState .completed (some msg), none)
    | .offerRecved => (oa, some errPending)

/-- A body that is sent is an offer, or the answer to the peer's. Returns whether it is
accepted. -/
def onTxSdp : AmOfferAnswer Sdp × Bool :=
  if body.empty then (oa, false)
  else
    match oa.state with
    | .none => ({ oa.setState .offerSent (some msg) with cseq := msg.cseq }, true)
    | .completed => ({ oa.setState .offerSent (some msg) with cseq := msg.cseq }, true)
    | .offerRecved => (oa.setState .completed (some msg), true)
    | .offerSent => (oa, false)

/-- The handler's offer or answer : the verdict and the local description after it. -/
def askHandler (hdl : Option (SdpHandler Sdp)) (oa : AmOfferAnswer Sdp) : Bool × Sdp :=
  match hdl, oa.state with
  | none, _ => (false, oa.sdpLocal)
  | some h, .none => h.getSdpOffer oa.sdpLocal
  | some h, .completed => h.getSdpOffer oa.sdpLocal
  | some h, .offerRecved => h.getSdpAnswer oa.sdpRemote oa.sdpLocal
  | some _, .offerSent => (false, oa.sdpLocal)

/-- The text of a session description to send, if there is one. -/
def getSdpBody (hdl : Option (SdpHandler Sdp)) (oa : AmOfferAnswer Sdp) :
    AmOfferAnswer Sdp × Option Str :=
  let (ok, sdpLocal) := askHandler hdl oa
  ({ oa with sdpLocal := sdpLocal }, if ok then some (sdp.print sdpLocal) else none)

/-- The content type of a session description. -/
def sdpType : AmContentType :=
  ⟨"application".toList, "sdp".toList⟩

/-- The body has a part for CSTA. -/
def hasCsta : Bool :=
  (body.hasContentType SIP_APPLICATION_CSTA).isSome

variable (reply : AmSipReply)

/-- `generate_sdp` in `onReplyOut` : the session description is empty, or is missing and needed. -/
def generateSdp : Bool :=
  match reply.body.hasContentType SIP_APPLICATION_SDP with
  | some part => part.getLen == 0
  | none =>
    if hasCsta reply.body then false
    else
      match reply.cseqMethod with
      | .INVITE =>
        decide ((reply.code = 183 ∨ 200 ≤ reply.code ∧ reply.code < 300) ∧
          (oa.state = .offerRecved ∨ oa.state = .none ∨ oa.state = .completed))
      | .UPDATE => decide ((200 ≤ reply.code ∧ reply.code < 300) ∧ oa.state = .offerRecved)
      | _ => false

/-- `has_sdp` in `onReplyOut`. What is repeated in further replies to the INVITE is ignored. -/
def hasSdp : Bool :=
  match reply.body.hasContentType SIP_APPLICATION_SDP with
  | some part =>
    part.getLen != 0 &&
      !decide (reply.cseqMethod = .INVITE ∧ reply.code < 300 ∧
        (oa.state = .completed ∨ oa.state = .offerSent) ∧ reply.cseq = oa.cseq)
  | none => false

/-- A missing session description is not an error : in a 183, and in a 200 after the
exchange. -/
def sdpOptional : Bool :=
  decide (reply.cseqMethod = .INVITE ∧
    (reply.code = 183 ∨ reply.code = 200 ∧ oa.state = .completed))

/-- The payload of the session description. -/
def sdpPayload (body : AmMimeBody) : Option Str :=
  (body.hasContentType SIP_APPLICATION_SDP).bind AmMimeBody.getPayload

/-- The body with a part for a session description. -/
def withSdpPart (body : AmMimeBody) : Option AmMimeBody :=
  if (body.hasContentType SIP_APPLICATION_SDP).isSome then some body else body.addPart sdpType

/-- The last part of `onReplyOut`, with `hasSdp` and the body as they are by then. -/
def finishReply (msg : OaMsg) (reply : AmSipReply) (hasSdp : Bool) : AmOfferAnswer Sdp × OaTx
    AmSipReply :=
  let res := if hasSdp || (decide (reply.cseqMethod ≠ .INFO) && hasCsta reply.body) then
      oa.onTxSdp msg reply.body else (oa, true)
  if !res.2 then (res.1, .refused)
  else if 300 ≤ reply.code ∧ reply.cseq = res.1.cseq then
    (res.1.clearTransitionalState sdp, .ok reply)
  else (res.1, .ok reply)

/-- `onReplyOut` : the handler is asked for what the reply lacks. -/
def onReplyOut (hdl : Option (SdpHandler Sdp)) (oa : AmOfferAnswer Sdp) (msg : OaMsg)
    (reply : AmSipReply) : AmOfferAnswer Sdp × OaTx AmSipReply :=
  let oa := oa.saveState
  if oa.generateSdp reply then
    match oa.getSdpBody sdp hdl with
    | (oa, none) =>
      if oa.sdpOptional reply then oa.finishReply sdp msg reply (oa.hasSdp reply)
      else (oa, .refused)
    | (oa, some text) =>
      match withSdpPart reply.body with
      | none => (oa, .refused)
      | some body =>
        oa.finishReply sdp msg
          { reply with body := body.setPartPayload SIP_APPLICATION_SDP text } true
  else if oa.hasSdp reply then
    -- a session description that cannot be parsed is only logged
    { oa with sdpLocal := (sdp.parse (sdpPayload reply.body)).1 }.finishReply sdp msg reply true
  else oa.finishReply sdp msg reply false

/-- The last part of `onRequestOut`. -/
def finishRequest (msg : OaMsg) (req : AmSipRequest) (hasSdp : Bool) : AmOfferAnswer Sdp × OaTx
    AmSipRequest :=
  if hasSdp || (hasCsta req.body && decide (req.method ≠ .INFO)) then
    match oa.onTxSdp msg req.body with
    | (oa, true) => (oa, .ok req)
    | (oa, false) => (oa, .refused)
  else (oa, .ok req)

/-- The answer is due in a PRACK or ACK that has no session description. -/
def answerDue (req : AmSipRequest) : Bool :=
  !hasCsta req.body && decide ((req.method = .PRACK ∨ req.method = .ACK) ∧ oa.state = .offerRecved)

/-- `onRequestOut` : the same for a request. -/
def onRequestOut (hdl : Option (SdpHandler Sdp)) (oa : AmOfferAnswer Sdp) (msg : OaMsg)
    (req : AmSipRequest) : AmOfferAnswer Sdp × OaTx AmSipRequest :=
  let sent := oa.saveState
  match req.body.hasContentType SIP_APPLICATION_SDP with
  | some part =>
    if part.getLen = 0 then
      match sent.getSdpBody sdp hdl with
      | (oa, none) => (oa, .refused)
      | (oa, some text) =>
        oa.finishRequest msg
          { req with body := req.body.setPartPayload SIP_APPLICATION_SDP text } true
    else
      { sent with sdpLocal := (sdp.parse part.getPayload).1 }.finishRequest msg req true
  | none =>
    if oa.answerDue req then
      match sent.getSdpBody sdp hdl, req.body.addPart sdpType with
      | (oa, none), _ => (oa, .refused)
      | (oa, some _), none => (oa, .crashed)
      | (oa, some text), some body =>
        oa.finishRequest msg { req with body := body.setPartPayload SIP_APPLICATION_SDP text } true
    else sent.finishRequest msg req false

/-! ## A refused session description -/

/-- If a received session description is refused, the state, the CSeq and the local description
stay. If the body cannot be used, no remote description is left. -/
theorem onRxSdp_error (oa : AmOfferAnswer Sdp) (msg : OaMsg) (body : AmMimeBody) {err : OaError}
    (herr : (oa.onRxSdp sdp msg body).2 = some err) :
    (oa.onRxSdp sdp msg body).1.state = oa.state ∧
      (oa.onRxSdp sdp msg body).1.cseq = oa.cseq ∧
      (oa.onRxSdp sdp msg body).1.sdpLocal = oa.sdpLocal ∧
      (err ≠ errPending → (oa.onRxSdp sdp msg body).1.sdpRemote = sdp.clear) := by
  unfold onRxSdp at herr ⊢
  generalize readSdp sdp oa.sdpRemote body = res at herr ⊢
  obtain ⟨remote, _ | e⟩ := res
  · -- the body is fine : the only error left is that an offer is pending
    cases hst : oa.state with
    | none | completed | offerSent => simp [hst] at herr
    | offerRecved =>
      obtain rfl : errPending = err := by simpa [hst] using herr
      simp
  · simp

/-- Session descriptions as their media lines. -/
def mediaLines : SdpOps (List Str) where
  clear := []
  parse payload :=
    match payload with
    | none => ([], true)
    | some text => ((text.splitOn '\n').filter fun line => line.take 2 = "m=".toList, false)
  mediaEmpty := List.isEmpty
  print lines := "v=0\r\n".toList ++ lines.flatten
  print_ne_nil := by simp

/-- A body of type `application/sdp`. -/
def sdpBody (text : Str) : AmMimeBody :=
  .mk ⟨"application".toList, "sdp".toList⟩ (some text) text.length []

/-- An engine with a completed exchange. -/
def completedOa : AmOfferAnswer (List Str) where
  state := .completed
  savedState := .completed
  cseq := 7
  sdpRemote := ["m=audio 4000 RTP/AVP 0\r".toList]
  sdpLocal := ["m=audio 5000 RTP/AVP 0\r".toList]
  trace := []

/-- An UPDATE with a session description that has no media line. -/
def updateMsg : OaMsg :=
  ⟨true, false, .UPDATE, 8, none⟩

theorem onRxSdp_error_noMedia :
    (completedOa.onRxSdp mediaLines updateMsg (sdpBody "v=0\r\n".toList)).2 = some errNoMedia ∧
      (completedOa.onRxSdp mediaLines updateMsg (sdpBody "v=0\r\n".toList)).1.sdpRemote = [] := by
  have herr : (completedOa.onRxSdp mediaLines updateMsg (sdpBody "v=0\r\n".toList)).2 =
      some errNoMedia := by
    decide
  exact ⟨herr, (onRxSdp_error mediaLines completedOa updateMsg _ herr).2.2.2 (by decide)⟩

/-- The remote description of the completed session is gone after the refused one. -/
theorem onRxSdp_error_remote_changed :
    ¬ ∀ (oa : AmOfferAnswer (List Str)) (msg : OaMsg) (body : AmMimeBody) (err : OaError),
      (oa.onRxSdp mediaLines msg body).2 = some err →
        (oa.onRxSdp mediaLines msg body).1.state = oa.state ∧
          (oa.onRxSdp mediaLines msg body).1.cseq = oa.cseq ∧
          (oa.onRxSdp mediaLines msg body).1.sdpLocal = oa.sdpLocal ∧
          (oa.onRxSdp mediaLines msg body).1.sdpRemote = oa.sdpRemote := by
  intro h
  have hkept := h completedOa updateMsg (sdpBody "v=0\r\n".toList) errNoMedia (by decide)
  exact absurd hkept.2.2.2 (by decide)

end AmOfferAnswer

end Sems
