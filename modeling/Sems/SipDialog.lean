import Sems.OfferAnswer
import Sems.OrdMap

/-!
# SIP dialogs

`AmSipDialog` and its base class (`core/AmSipDialog.cpp`, `core/AmBasicSipDialog.cpp`) : the
status of a call, the open transactions in both directions, the offer/answer engine, the reliable
provisional replies and the counter of unanswered INVITEs.

`DlgEnv` is what comes from outside while a function runs : the event handler, whether the
transaction layer sends a message, the random numbers and the configuration. What only goes into the
text of a message (URIs, routes, contacts) is left out, and so are calls that only tell the handler
something. `DlgEv` are the calls from outside, and `run` is a sequence of them.
-/

namespace Sems

/-- The transactions of one direction, by CSeq. -/
abbrev TransMap := OrdMap ℤ AmSipRequest

namespace TransMap

variable (m : TransMap)

/-- `map<int, AmSipRequest>` : the key is the CSeq as a signed number. -/
def get (cseq : BitVec 32) : Option AmSipRequest :=
  m.find? cseq.toInt

/-- A request takes the place under its CSeq. -/
def set (cseq : BitVec 32) (req : AmSipRequest) : TransMap :=
  m.insert cseq.toInt req

/-- The transaction is over. -/
def remove (cseq : BitVec 32) : TransMap :=
  m.erase cseq.toInt

/-- The open INVITE transactions, in the order of their keys. -/
def invites : List AmSipRequest :=
  (m.entries.map Prod.snd).filter fun req => req.method = .INVITE

end TransMap

/-- What a dialog meets outside while it runs. -/
structure DlgEnv (Sdp : Type*) where
  sdp : SdpOps Sdp
  hdl : Option (SdpHandler Sdp)
  sendsReply : AmSipReply → Bool
  sendsRequest : AmSipRequest → Bool
  random : BitVec 32
  ignoreNotifyLowerCSeq : Bool

/-- A dialog, with its offer/answer engine and its 100rel state. -/
structure AmSipDialog (Sdp : Type*) where
  status : DlgStatus
  callid : Str
  localTag : Str
  extLocalTag : Str
  remoteTag : Str
  cseq : BitVec 32
  rCseqI : Bool
  rCseq : BitVec 32
  uasTrans : TransMap
  uacTrans : TransMap
  pendingInvites : BitVec 32
  sdpLocal : Sdp
  sdpRemote : Sdp
  earlySessionStarted : Bool
  sessionStarted : Bool
  oa : AmOfferAnswer Sdp
  offeranswerEnabled : Bool
  rel100 : Am100rel

/-- What became of a reply. -/
inductive ReplyResult where
  | noTransaction
  | refused
  | thrown (e : SessionException)
  | sendFailed
  | sent

namespace AmSipDialog

variable {Sdp : Type*} (env : DlgEnv Sdp)

variable (d : AmSipDialog Sdp)

/-- `AmSipDialog::setStatus`. -/
def setStatus (status : DlgStatus) : AmSipDialog Sdp :=
  { d with status := status }

/-! ## The exchange of session descriptions is complete -/

/-- Whether the handler failed. -/
def onSdpCompleted (d : AmSipDialog Sdp) : AmSipDialog Sdp × Bool :=
  match env.hdl with
  | none => (d, false)
  | some h =>
    if h.onSdpCompleted d.oa.sdpLocal d.oa.sdpRemote then
      ({ d with oa := d.oa.clear env.sdp }, true)
    else
      ({ d with
          sdpLocal := d.oa.sdpLocal, sdpRemote := d.oa.sdpRemote,
          earlySessionStarted := d.earlySessionStarted || d.status == .Early,
          sessionStarted := d.sessionStarted || d.status == .Connected }, false)

/-- `AmOfferAnswer::checkStateChange`. -/
def checkStateChange : AmSipDialog Sdp × Bool :=
  if d.oa.savedState ≠ d.oa.state ∧ d.oa.state = .completed then d.onSdpCompleted env
  else (d, false)

/-- `AmOfferAnswer::clearTransitionalState`, if the CSeq is the one of the exchange. -/
def clearOa (cseq : BitVec 32) : AmSipDialog Sdp :=
  if cseq = d.oa.cseq then { d with oa := d.oa.clearTransitionalState env.sdp } else d

/-- `AmOfferAnswer::onReplySent`. -/
def oaOnReplySent (reply : AmSipReply) : AmSipDialog Sdp :=
  let d := (d.checkStateChange env).1
  if 200 ≤ reply.code ∧ reply.cseqMethod ≠ .CANCEL ∧ reply.cseqMethod ≠ .INVITE then
    d.clearOa env reply.cseq
  else d

variable (req : AmSipRequest)

/-- `AmOfferAnswer::onRequestSent`. -/
def oaOnRequestSent : AmSipDialog Sdp :=
  let d := (d.checkStateChange env).1
  if req.method = .ACK then d.clearOa env req.cseq else d

/-! ## Replies -/

/-- The status after a reply to the INVITE or BYE, or none if the reply is refused. -/
def statusAfterReply (status : DlgStatus) (reply : AmSipReply) : Option DlgStatus :=
  match status with
  | .Connected => some status
  | .Disconnected => some status
  | .Disconnecting =>
    if reply.cseqMethod = .BYE ∧ 200 ≤ reply.code then some .Disconnected else some status
  | _ =>
    if reply.cseqMethod = .INVITE then
      if reply.code < 200 then
        -- refuse local provisional replies when state is Cancelling
        if status = .Cancelling then none else some .Early
      else if reply.code < 300 then some .Connected
      else some .Disconnected
    else some status

/-- The reply in the view of the offer/answer engine. -/
def replyMsg (reply : AmSipReply) (received : Bool) : OaMsg :=
  ⟨received, true, reply.cseqMethod, reply.cseq, none⟩

/-- Refused, an exception, or the reply as it is to be sent. -/
inductive TxReply where
  | ok (reply : AmSipReply)
  | refused
  | thrown (e : SessionException)

/-- The engine's part of `onTxReply`, if it is enabled. -/
def oaOnReplyOut (reply : AmSipReply) : AmSipDialog Sdp × OaTx AmSipReply :=
  if d.offeranswerEnabled then
    let (oa, res) := d.oa.onReplyOut env.sdp env.hdl (replyMsg reply false) reply
    ({ d with oa := oa }, res)
  else (d, .ok reply)

/-- `onTxReply` : the engine, the reliable replies and the status, in this order. -/
def onTxReply (reply : AmSipReply) : AmSipDialog Sdp × TxReply :=
  match d.oaOnReplyOut env reply with
  | (d, .ok reply) =>
    match d.rel100.onReplyOut env.random reply with
    | .error e => (d, .thrown e)
    | .ok (rel100, reply) =>
      let d := { d with rel100 := rel100 }
      match statusAfterReply d.status reply with
      | none => (d, .refused)
      | some status => (d.setStatus status, .ok reply)
  | (d, _) => (d, .refused)

/-- `onReplyTxed` : a final reply ends the transaction. -/
def onReplyTxed (reply : AmSipReply) : AmSipDialog Sdp :=
  let d := if 200 ≤ reply.code ∧ reply.cseqMethod ≠ .CANCEL then
      { d with uasTrans := TransMap.remove d.uasTrans reply.cseq } else d
  let d := if d.offeranswerEnabled then d.oaOnReplySent env reply else d
  if 200 ≤ reply.code ∧ reply.cseqMethod = .INVITE then
    { d with pendingInvites := d.pendingInvites - 1 }
  else d

/-- The reply `reply` starts from. -/
def newReply (code : ℕ) (body : Option AmMimeBody) (hdrs : Str) : AmSipReply where
  code := code
  cseqMethod := req.method
  cseq := req.cseq
  rseq := 0
  toTag := if code > 100 then (if d.extLocalTag = [] then d.localTag else d.extLocalTag) else []
  hdrs := hdrs
  body := (body.map AmMimeBody.copy).getD .none

/-- `AmBasicSipDialog::reply`, for a request that waits for it. -/
def reply (d : AmSipDialog Sdp) (req : AmSipRequest) (code : ℕ) (body : Option AmMimeBody)
    (hdrs : Str) : AmSipDialog Sdp × ReplyResult :=
  if (d.uasTrans.get req.cseq).isNone then (d, .noTransaction)
  else
    match d.onTxReply env (d.newReply req code body hdrs) with
    | (d, .refused) => (d, .refused)
    | (d, .thrown e) => (d, .thrown e)
    | (d, .ok reply) =>
      if env.sendsReply reply then (d.onReplyTxed env reply, .sent) else (d, .sendFailed)

/-! ## Requests -/

/-- The request in the view of the offer/answer engine. -/
def requestMsg (received : Bool) : OaMsg :=
  ⟨received, false, req.method, req.cseq, if req.method = .PRACK then some req.rackCseq else none⟩

/-- The engine's part of `onTxRequest`, if it is enabled. -/
def oaOnRequestOut : AmSipDialog Sdp × OaTx AmSipRequest :=
  if d.offeranswerEnabled then
    let (oa, res) := d.oa.onRequestOut env.sdp env.hdl (requestMsg req false) req
    ({ d with oa := oa }, res)
  else (d, .ok req)

/-- `onTxRequest` : the engine and the status, before the request is sent. -/
def onTxRequest : AmSipDialog Sdp × OaTx AmSipRequest :=
  match d.oaOnRequestOut env (d.rel100.onRequestOut req) with
  | (d, .ok req) =>
    let d := if req.method = .INVITE ∧ d.status = .Disconnected then d.setStatus .Trying
      else if req.method = .BYE ∧ d.status ≠ .Disconnecting then d.setStatus .Disconnecting
      else d
    (d, .ok req)
  | (d, .refused) => (d, .refused)
  | (d, .crashed) => (d, .crashed)

/-- `onRequestTxed` : the transaction of a sent request, and the next CSeq. -/
def onRequestTxed : AmSipDialog Sdp :=
  let d := if req.method ≠ .ACK then
      { d with uacTrans := TransMap.set d.uacTrans req.cseq req, cseq := d.cseq + 1 }
    else { d with uacTrans := TransMap.remove d.uacTrans req.cseq }
  if d.offeranswerEnabled then d.oaOnRequestSent env req else d

/-- The common part of `sendRequest` and `send_200_ack`. -/
def transmit : AmSipDialog Sdp :=
  match d.onTxRequest env req with
  | (d, .ok req) => if env.sendsRequest req then d.onRequestTxed env req else d
  | (d, _) => d

/-- `rackCseq` is the CSeq number `prack` writes to the RAck header. -/
def sendRequest (method : SipMethod) (body : Option AmMimeBody) (hdrs : Str)
    (rackCseq : BitVec 32) : AmSipDialog Sdp :=
  d.transmit env
    { method := method, cseq := d.cseq, rseq := 0, rackCseq := rackCseq, callid := d.callid,
      fromTag := if d.extLocalTag = [] then d.localTag else d.extLocalTag, hdrs := hdrs,
      body := (body.map AmMimeBody.copy).getD .none }

/-- `send_200_ack`, if the INVITE is still open. -/
def send200Ack (invCseq : BitVec 32) (body : Option AmMimeBody) : AmSipDialog Sdp :=
  if (d.uacTrans.get invCseq).isNone then d
  else
    d.transmit env
      { method := .ACK, cseq := invCseq, rseq := 0, rackCseq := 0, callid := d.callid,
        fromTag := [], hdrs := [], body := (body.map AmMimeBody.copy).getD .none }

/-- `cancel` : the status changes if there is an INVITE to cancel. -/
def cancel : AmSipDialog Sdp :=
  if d.uacTrans.invites ≠ [] ∧ d.status ≠ .Cancelling then d.setStatus .Cancelling else d

/-- Quit the call by a final reply to the first INVITE, or just by the status. -/
def replyTerminated : AmSipDialog Sdp :=
  match d.uasTrans.invites with
  | req :: _ => (d.reply env req 487 none []).1
  | [] => d.setStatus .Disconnected

/-- `AmSipDialog::bye`, which depends on the status. -/
def bye (hdrs : Str) : AmSipDialog Sdp :=
  match d.status with
  | .Disconnecting => d.uacTrans.invites.foldl (fun d req => d.send200Ack env req.cseq none) d
  | .Connected =>
    let d := d.uacTrans.invites.foldl (fun d req => d.send200Ack env req.cseq none) d
    -- the status is read again : the ACKs do not change it
    if d.status ≠ .Disconnecting then
      (d.setStatus .Disconnected).sendRequest env .BYE none hdrs 0
    else d
  | .Cancelling => d.replyTerminated env
  | .Disconnected => d
  | _ => if d.uacTrans.invites ≠ [] then d.cancel else d.replyTerminated env

/-! ## Received requests -/

/-- For a body that the engine cannot read. -/
def errContentType : OaError := ⟨400, "unsupported content type".toList⟩

/-- For a handler that failed. -/
def errInternal : OaError := ⟨500, "internal error".toList⟩

/-- The body of a received request goes to the engine. -/
def rxRequestBody : AmSipDialog Sdp × Option OaError :=
  if (req.method = .INVITE ∨ req.method = .UPDATE ∨ req.method = .ACK ∨ req.method = .PRACK) ∧
      req.body.empty = false then
    match req.body.hasContentType SIP_APPLICATION_SDP with
    | some part =>
      let (oa, err) := d.oa.onRxSdp env.sdp (requestMsg req true) part
      ({ d with oa := oa }, err)
    | none => if AmOfferAnswer.hasCsta req.body then (d, none) else (d, some errContentType)
  else (d, none)

/-- `AmOfferAnswer::onRequestIn`. Returns whether the request goes on to the handler. -/
def oaOnRequestIn : AmSipDialog Sdp × Bool :=
  let (d, err) := { d with oa := d.oa.saveState }.rxRequestBody env req
  let (d, failed) := d.checkStateChange env
  let err := if failed then some errInternal else err
  let d := match err with
    | none => d
    | some err => if req.method ≠ .ACK then (d.reply env req err.code none []).1 else d.bye env []
  let d := if req.method = .ACK then d.clearOa env req.cseq else d
  (d, err.isNone)

/-- The status after a received request. A CANCEL is answered at once. -/
def statusOnRequest : AmSipDialog Sdp :=
  match d.status with
  | .Disconnected => if req.method = .INVITE then d.setStatus .Trying else d
  | .Connected => if req.method = .BYE then d.setStatus .Disconnecting else d
  | .Trying | .Proceeding | .Early =>
    if req.method = .BYE then d.setStatus .Disconnecting
    else if req.method = .CANCEL then ((d.setStatus .Cancelling).reply env req 200 none []).1
    else d
  | _ => d

/-- `onRxReqStatus` : returns whether the request goes on to the handler. -/
def onRxReqStatus : AmSipDialog Sdp × Bool :=
  let d := d.statusOnRequest env req
  if d.offeranswerEnabled then d.oaOnRequestIn env req else (d, true)

/-- `AmBasicSipDialog::onRxReqSanity` : the tag and the CSeq of the request fit. -/
def basicSanity : Bool :=
  if d.remoteTag ≠ [] ∧ req.fromTag ≠ [] ∧ req.fromTag ≠ d.remoteTag then false
  else if d.rCseqI ∧ req.cseq ≤ d.rCseq then
    decide (req.method = .NOTIFY) && env.ignoreNotifyLowerCSeq
  else true

/-- An INVITE has to wait : one was received or sent that is still open, or an offer is
pending. -/
def invitePending : Bool :=
  d.pendingInvites != 0 || !d.uacTrans.invites.isEmpty ||
    d.offeranswerEnabled && decide (d.oa.state ≠ .none ∧ d.oa.state ≠ .completed)

/-- The CSeq of the last request. -/
def noteCseq : AmSipDialog Sdp :=
  { d with rCseq := req.cseq, rCseqI := true }

/-- `pending_invites++`, for an INVITE. -/
def countInvite : AmSipDialog Sdp :=
  if req.method = .INVITE then { d with pendingInvites := d.pendingInvites + 1 } else d

/-- `onRxReqSanity`, for requests other than ACK and CANCEL. A refused one is answered outside of
the dialog. -/
def onRxReqSanity : AmSipDialog Sdp × Bool :=
  if d.basicSanity env req = false then (d, false)
  else if req.method = .INVITE ∧ d.invitePending then (d.noteCseq req, false)
  else
    let d := (d.noteCseq req).countInvite req
    let (rel100, err) := d.rel100.onRequestIn req
    ({ d with rel100 := rel100 }, err.isNone)

/-- `AmBasicSipDialog::onRxRequest`. -/
def onRxRequest : AmSipDialog Sdp :=
  if req.method = .ACK then (d.onRxReqStatus env req).1
  else if req.method = .CANCEL then
    if (d.uasTrans.get req.cseq).isNone then d else (d.onRxReqStatus env req).1
  else
    match d.onRxReqSanity env req with
    | (d, false) => d
    | (d, true) =>
      let d := { d with uasTrans := TransMap.set d.uasTrans req.cseq req }
      let d := if d.callid = [] then
          { d with callid := req.callid, remoteTag := req.fromTag } else d
      (d.onRxReqStatus env req).1

/-! ## Received replies -/

variable (reply : AmSipReply)

/-- `AmOfferAnswer::onReplyIn`. -/
def oaOnReplyIn : AmSipDialog Sdp :=
  if 300 ≤ reply.code ∧ reply.cseq = d.oa.cseq then
    { d with oa := d.oa.clearTransitionalState env.sdp }
  else if (reply.cseqMethod = .INVITE ∨ reply.cseqMethod = .UPDATE ∨ reply.cseqMethod = .PRACK) ∧
      reply.body.empty = false ∧
      ((reply.body.hasContentType SIP_APPLICATION_SDP).isSome ∨
        AmOfferAnswer.hasCsta reply.body) then
    if (d.oa.state = .completed ∨ d.oa.state = .offerRecved) ∧ reply.cseq = d.oa.cseq then
      -- a session description repeated within the transaction
      if reply.code = 200 then (d.onSdpCompleted env).1 else d
    else
      let (oa, err) := d.oa.saveState.onRxSdp env.sdp (replyMsg reply true) reply.body
      let d := ({ d with oa := oa }.checkStateChange env).1
      if err.isSome then d.bye env [] else d
  else d

/-- `onRxReplySanity`. -/
def onRxReplySanity : Bool :=
  if d.remoteTag ≠ [] ∧ reply.toTag ≠ d.remoteTag then
    if d.status = .Early then true
    else
      decide (reply.cseqMethod = .INVITE ∨ reply.cseqMethod = .CANCEL ∨ reply.cseqMethod = .BYE)
  else true

/-- A 2xx to the INVITE : the dialog is connected, or ended again if the reply has no tag. -/
def onInvite2xxIn (ack : Bool) : AmSipDialog Sdp :=
  let d := d.setStatus .Connected
  if reply.toTag = [] then
    (if ack then d.send200Ack env reply.cseq none else d).sendRequest env .BYE none [] 0
  else { d with remoteTag := reply.toTag }

/-- The first part of `onRxReplyStatus`, for replies to the INVITE. -/
def inviteReplyStatus : AmSipDialog Sdp :=
  match d.status with
  | .Trying | .Proceeding =>
    if reply.code < 200 then
      if reply.code = 100 ∨ reply.toTag = [] then d.setStatus .Proceeding
      else { d.setStatus .Early with remoteTag := reply.toTag }
    else if reply.code < 300 then d.onInvite2xxIn env reply true
    else { d.setStatus .Disconnected with remoteTag := reply.toTag }
  | .Early =>
    if reply.code < 200 then
      if reply.toTag ≠ [] ∧ reply.toTag ≠ d.remoteTag then { d with remoteTag := reply.toTag }
      else d
    else if reply.code < 300 then d.onInvite2xxIn env reply false
    else { d.setStatus .Disconnected with remoteTag := reply.toTag }
  | .Cancelling =>
    if reply.code < 200 then
      if reply.toTag ≠ [] then { d with remoteTag := reply.toTag } else d
    else if 300 ≤ reply.code then d.setStatus .Disconnected
    else { d.setStatus .Connected with remoteTag := reply.toTag }.bye env []
  | _ => d

/-- A final reply to the request that ends the dialog. -/
def endReplyStatus : AmSipDialog Sdp :=
  let d := if d.status = .Disconnecting ∧ reply.cseqMethod = .BYE ∧ 200 ≤ reply.code then
      d.setStatus .Disconnected else d
  if d.status = .Cancelling ∧ reply.cseqMethod = .CANCEL ∧ 200 ≤ reply.code then
    d.setStatus .Disconnected
  else d

/-- `Am100rel::onReplyIn`, with the call it tears down on an error. -/
def rel100OnReplyIn : AmSipDialog Sdp :=
  let (rel100, action, _) := d.rel100.onReplyIn d.status reply
  let d := { d with rel100 := rel100 }
  if action = .byeOnFailure then d.bye env [] else d

/-- `onRxReplyStatus` : the status first, then the engine and 100rel. -/
def onRxReplyStatus : AmSipDialog Sdp :=
  let d := if reply.cseqMethod = .INVITE then d.inviteReplyStatus env reply else d
  let d := d.endReplyStatus reply
  let d := if d.offeranswerEnabled then d.oaOnReplyIn env reply else d
  d.rel100OnReplyIn env reply

/-- `onRxReply` : a final reply ends the transaction, if it is no 2xx to an INVITE. -/
def onRxReply : AmSipDialog Sdp :=
  if d.onRxReplySanity reply = false then d
  else if (d.uacTrans.get reply.cseq).isNone then d
  else
    let d := d.onRxReplyStatus env reply
    if 200 ≤ reply.code ∧ (reply.cseqMethod ≠ .INVITE ∨ 300 ≤ reply.code) then
      { d with uacTrans := TransMap.remove d.uacTrans reply.cseq }
    else d

/-! ## Termination, and runs -/

/-- The loop of `termUasTrans`, for at most `k` transactions. -/
def termUasLoop : ℕ → AmSipDialog Sdp → AmSipDialog Sdp
  | 0, d => d
  | k + 1, d =>
    match d.uasTrans.entries with
    | [] => d
    | (key, req) :: _ =>
      let d := (d.reply env req 481 none []).1
      termUasLoop k { d with uasTrans := d.uasTrans.erase key }

/-- Every open request is answered by 481. -/
def termUasTrans : AmSipDialog Sdp :=
  termUasLoop env d.uasTrans.entries.length d

/-- The requests sent are forgotten. -/
def termUacTrans : AmSipDialog Sdp :=
  { d with uacTrans := .empty }

/-- `finalize`, when the session ends. -/
def finalize : AmSipDialog Sdp :=
  (d.termUasTrans env).termUacTrans

/-- All transactions are forgotten. -/
def dropTransactions : AmSipDialog Sdp :=
  { d.termUacTrans with uasTrans := .empty }

end AmSipDialog

/-- The calls from outside. -/
inductive DlgEv where
  | rxRequest (req : AmSipRequest)
  | rxReply (reply : AmSipReply)
  | reply (req : AmSipRequest) (code : ℕ) (body : Option AmMimeBody) (hdrs : Str)
  | sendRequest (method : SipMethod) (body : Option AmMimeBody) (hdrs : Str)
  | prack (reply1xx : AmSipReply) (body : Option AmMimeBody) (hdrs : Str)
  | send200Ack (invCseq : BitVec 32) (body : Option AmMimeBody)
  | bye (hdrs : Str)
  | cancel
  | noAck (cseq : BitVec 32)
  | finalize
  | dropTransactions

namespace AmSipDialog

variable {Sdp : Type*}

/-- A new dialog. -/
def init (sdp : SdpOps Sdp) (localTag : Str) (cseq : BitVec 32) (rel100 : Rel100State)
    (offeranswerEnabled : Bool) : AmSipDialog Sdp where
  status := .Disconnected
  callid := []
  localTag := localTag
  extLocalTag := []
  remoteTag := []
  cseq := cseq
  rCseqI := false
  rCseq := 0
  uasTrans := .empty
  uacTrans := .empty
  pendingInvites := 0
  sdpLocal := sdp.clear
  sdpRemote := sdp.clear
  earlySessionStarted := false
  sessionStarted := false
  oa := .init sdp
  offeranswerEnabled := offeranswerEnabled
  rel100 := .init rel100

/-- A call from outside. -/
def step (env : DlgEnv Sdp) (d : AmSipDialog Sdp) : DlgEv → AmSipDialog Sdp
  | .rxRequest req => d.onRxRequest env req
  | .rxReply reply => d.onRxReply env reply
  | .reply req code body hdrs => (d.reply env req code body hdrs).1
  | .sendRequest method body hdrs => d.sendRequest env method body hdrs 0
  | .prack reply1xx body hdrs =>
    if d.status = .Disconnected ∨ d.status = .Disconnecting then d
    else d.sendRequest env .PRACK body hdrs reply1xx.cseq
  | .send200Ack invCseq body => d.send200Ack env invCseq body
  | .bye hdrs => d.bye env hdrs
  | .cancel => d.cancel
  | .noAck cseq => if d.offeranswerEnabled then d.clearOa env cseq else d
  | .finalize => d.finalize env
  | .dropTransactions => d.dropTransactions

/-- Each call comes with what it meets outside. -/
def run (d : AmSipDialog Sdp) : List (DlgEnv Sdp × DlgEv) → AmSipDialog Sdp
  | [] => d
  | (env, ev) :: evs => run (d.step env ev) evs

/-! ## What leaves the transactions alone -/

/-- The open transactions of both sides, with the counters. -/
structure Transactions where
  cseq : BitVec 32
  uacTrans : TransMap
  uasTrans : TransMap
  pendingInvites : BitVec 32
  rCseqI : Bool
  rCseq : BitVec 32

/-- The transactions of a dialog. -/
def trans (d : AmSipDialog Sdp) : Transactions :=
  ⟨d.cseq, d.uacTrans, d.uasTrans, d.pendingInvites, d.rCseqI, d.rCseq⟩

variable (env : DlgEnv Sdp) (d : AmSipDialog Sdp)

theorem trans_onSdpCompleted : (d.onSdpCompleted env).1.trans = d.trans := by
  unfold onSdpCompleted
  split
  · rfl
  · split_ifs <;> rfl

theorem trans_checkStateChange : (d.checkStateChange env).1.trans = d.trans := by
  unfold checkStateChange
  split_ifs
  · exact trans_onSdpCompleted env d
  · rfl

theorem trans_clearOa (cseq : BitVec 32) : (d.clearOa env cseq).trans = d.trans := by
  unfold clearOa
  split_ifs <;> rfl

theorem trans_oaOnReplySent {reply : AmSipReply} : (d.oaOnReplySent env reply).trans = d.trans := by
  unfold oaOnReplySent
  split_ifs
  · rw [trans_clearOa, trans_checkStateChange]
  · exact trans_checkStateChange env d

variable (req : AmSipRequest)

theorem trans_oaOnRequestSent : (d.oaOnRequestSent env req).trans = d.trans := by
  unfold oaOnRequestSent
  split_ifs
  · rw [trans_clearOa, trans_checkStateChange]
  · exact trans_checkStateChange env d

theorem trans_onTxRequest : (d.onTxRequest env req).1.trans = d.trans := by
  have hout : (d.oaOnRequestOut env (d.rel100.onRequestOut req)).1.trans = d.trans := by
    unfold oaOnRequestOut
    split_ifs <;> rfl
  unfold onTxRequest
  generalize d.oaOnRequestOut env (d.rel100.onRequestOut req) = res at hout ⊢
  obtain ⟨d', req' | - | -⟩ := res
  · dsimp only
    split_ifs <;> exact hout
  · exact hout
  · exact hout

theorem trans_rxRequestBody : (d.rxRequestBody env req).1.trans = d.trans := by
  unfold rxRequestBody
  cases req.body.hasContentType SIP_APPLICATION_SDP <;> dsimp only <;> split_ifs <;> rfl

theorem trans_endReplyStatus {reply : AmSipReply} : (d.endReplyStatus reply).trans = d.trans := by
  unfold endReplyStatus
  dsimp only
  split_ifs <;> rfl

end AmSipDialog

end Sems
