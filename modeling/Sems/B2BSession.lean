import Sems.DialogClient
import Sems.Runs

/-!
# A leg of a back-to-back call

`AmB2BSession` (`core/AmB2BSession.cpp`) with the requests it sends for the other leg. `relaySip`
sends a request of the other leg and keeps it in `relayed_req`, by its CSeq. `onSipReply` finds it
there, and hands the reply to the other leg as the answer. A relayed INVITE stays in the map after
its 2xx, until the ACK comes. `updateUACTransCSeq` moves an entry when a handler has sent the
request once more.

Of the dialog there is the client side. `sends` tells if a request goes out, and `B2BReplyEnv` is
what a reply meets outside. `updateLocalBody`, `saveSessionDescription` and the RAck header of a
relayed PRACK are left out.
-/

namespace Sems

structure AmB2BSession where
  dlg : UacState
  relayedReq : TransMap
  estInviteCseq : BitVec 32
  estInviteOtherCseq : BitVec 32

/-- `B2BSipReplyEvent` : with `forward` the reply answers the other leg's request with its CSeq. -/
structure B2BReply where
  reply : AmSipReply
  forward : Bool
  transMethod : SipMethod

/-- What a reply meets outside : what the dialog itself sends on it, whether the ACK of
`onInvite2xx` goes out, whether `Am100rel` lets the reply through, the remote tag then, whether a
handler has sent the request again, and what the subscriptions say. -/
structure B2BReplyEnv where
  ops : List ClientOp
  acks : Bool
  passes : Bool
  remoteTag : Str
  retries : Bool
  subs : Bool

/-- The replies to these methods go to the subscriptions first. -/
def SipMethod.isSubscription (method : SipMethod) : Bool :=
  decide (method = .other "SUBSCRIBE".toList) || decide (method = .NOTIFY) ||
    decide (method = .other "REFER".toList)

/-- The codes on which `UACAuth` and `SessionTimer` send a request again. -/
def isRetryCode (code : ℕ) : Bool :=
  code == 401 || code == 407 || code == 422

/-- A final reply to a request with this method that no ACK has to follow. -/
def SipMethod.finishedBy (method : SipMethod) (code : ℕ) : Bool :=
  decide (200 ≤ code) && !(decide (code < 300) && decide (method = .INVITE))

namespace B2BReplyEnv

/-- `onSipReply` returns before it looks at `relayed_req`. -/
def drops (env : B2BReplyEnv) (reply : AmSipReply) : Bool :=
  (decide (env.remoteTag ≠ []) && decide (env.remoteTag ≠ reply.toTag)) ||
    (reply.cseqMethod.isSubscription && !env.subs)

/-- The request is sent again in place of an answer to the other leg. -/
def resends (env : B2BReplyEnv) (reply : AmSipReply) : Bool :=
  env.passes && isRetryCode reply.code && env.retries

end B2BReplyEnv

namespace AmB2BSession

/-! ## Requests -/

variable (s : AmB2BSession)

def relaySip (req : AmSipRequest) (sends : Bool) : AmB2BSession :=
  if req.method ≠ .ACK then
    -- the entry is there before the request is sent, and stays if it is not
    let s := { s with relayedReq := s.relayedReq.set s.dlg.cseq req }
    if sends then { s with dlg := s.dlg.send (.request req.method) } else s
  else
    match s.relayedReq.entries.find? fun t => t.2.cseq = req.cseq with
    | none => s
    | some t =>
      if sends ∧ (s.dlg.trans.find? t.1).isSome then
        { s with dlg := s.dlg.send (.ack t.1), relayedReq := s.relayedReq.erase t.1 }
      else s

/-- The request that stands for the other leg's INVITE. -/
def fakeReq (rCseq : BitVec 32) : AmSipRequest where
  method := .INVITE
  cseq := rCseq
  rseq := 0
  rackCseq := 0
  callid := []
  fromTag := []
  hdrs := []
  body := .none

/-- `AmB2BCalleeSession::onB2BEvent` for `B2BConnectLeg`. -/
def connectLeg (rCseq : BitVec 32) (relayedInvite sends : Bool) : AmB2BSession :=
  let s := if relayedInvite then
      { s with relayedReq := s.relayedReq.set s.dlg.cseq (fakeReq rCseq) } else s
  if sends then
    let dlg := s.dlg.send (.request .INVITE)
    { s with dlg := dlg, estInviteCseq := dlg.cseq - 1, estInviteOtherCseq := rCseq }
  else if relayedInvite then { s with relayedReq := s.relayedReq.remove s.dlg.cseq }
  else s

/-! ## Replies -/

def updateUACTransCSeq (oldCseq newCseq : BitVec 32) : AmB2BSession :=
  if oldCseq = newCseq then s
  else
    let s := match s.relayedReq.get oldCseq with
      | some req => { s with relayedReq := (s.relayedReq.set newCseq req).remove oldCseq }
      | none => s
    if s.estInviteCseq = oldCseq then { s with estInviteCseq := newCseq } else s

/-- A handler sends the request again. -/
def resend (cseq : BitVec 32) (method : SipMethod) : AmB2BSession :=
  { s with dlg := s.dlg.send (.request method) }.updateUACTransCSeq cseq s.dlg.cseq

variable (env : B2BReplyEnv) (reply : AmSipReply)

/-- The ACK of `onInvite2xx` is sent : nobody else has to. -/
def acksInvite : Bool :=
  decide (200 ≤ reply.code) && decide (reply.code < 300) && decide (reply.cseqMethod = .INVITE) &&
    (s.relayedReq.get reply.cseq).isNone && env.acks

def onInvite2xx : AmB2BSession :=
  if s.acksInvite env reply then { s with dlg := s.dlg.send (.ack reply.cseq.toInt) } else s

/-- The reply for the other leg that is not the answer to one of its requests. -/
def ownReply : B2BReply where
  reply := { reply with cseq :=
    if s.estInviteCseq = reply.cseq then s.estInviteOtherCseq
    else ((s.relayedReq.get reply.cseq).map AmSipRequest.cseq).getD 0 }
  forward := false
  transMethod := reply.cseqMethod

def onSipReply : AmB2BSession × Option B2BReply :=
  if env.drops reply then (s, none)
  else
    match s.relayedReq.get reply.cseq with
    | some req =>
      if reply.code ≠ 100 then
        (if req.method.finishedBy reply.code then
            { s with relayedReq := s.relayedReq.remove reply.cseq }
          else s,
          some ⟨{ reply with cseq := req.cseq }, true, req.method⟩)
      else (s, some (s.ownReply reply))
    | none => (s, some (s.ownReply reply))

/-- The handlers of the reply, if the dialog lets it through. -/
def handleReply (method : SipMethod) : AmB2BSession × Option B2BReply :=
  if env.resends reply then (s.resend reply.cseq method, none)
  else if env.passes then s.onSipReply env reply
  else (s, none)

/-- `AmBasicSipDialog::onRxReply`, with the leg as the event handler. -/
def onRxReply : AmB2BSession × Option B2BReply :=
  match s.dlg.trans.find? reply.cseq.toInt with
  | none => (s, none)
  | some method =>
    let s := { s with dlg := runFrom UacState.send s.dlg env.ops }
    let res := (s.onInvite2xx env reply).handleReply env reply method
    ({ res.1 with dlg := res.1.dlg.onFinal reply }, res.2)

end AmB2BSession

/-- The calls of a leg. -/
inductive B2BEv where
  | relay (req : AmSipRequest) (sends : Bool)
  | connect (rCseq : BitVec 32) (relayedInvite sends : Bool)
  | send (op : ClientOp)
  | reply (env : B2BReplyEnv) (reply : AmSipReply)

def AmB2BSession.step (s : AmB2BSession) : B2BEv → AmB2BSession
  | .relay req sends => s.relaySip req sends
  | .connect rCseq relayedInvite sends => s.connectLeg rCseq relayedInvite sends
  | .send op => { s with dlg := s.dlg.send op }
  | .reply env reply => (s.onRxReply env reply).1

end Sems
