import Sems.SipDialog
import Sems.KeyedList
import Sems.ParseCommon

/-!
# Subscriptions of a dialog

`AmSipSubscription` (`core/AmSipSubscription.cpp`) with the part of `AmBasicSipDialog` that calls it
and that it calls back. A subscription is an object with an address (`ptr`), and the two CSeq maps
hold such addresses. An access to an object that is no longer in the list is recorded in `dangling`.

Sending a reply calls `onReplySent` before the call that sent it goes on. In `removeSubscription`
the inner call finds nothing (`onReply_of_none`).

`owed`, `due` and `done` are records : the requests that were given to a subscription and are
without a final reply, the final replies to such requests while it is not terminated, and those its
`replyFSM` has worked on. With `dialog` in the configuration the subscriptions are those of an
`AmSipSubscriptionDialog`. Timers are events that may come at any time and for any address.
-/

namespace Sems

open Function (update)

/-- The event package. -/
def SIP_HDR_EVENT : Str := "Event".toList

/-- The time asked for or granted. -/
def SIP_HDR_EXPIRES : Str := "Expires".toList

/-- The state that a NOTIFY tells. -/
def SIP_HDR_SUBSCRIPTION_STATE : Str := "Subscription-State".toList

/-- A method that `SipMethod` has no constructor for. -/
def SipMethod.SUBSCRIBE : SipMethod := .other "SUBSCRIBE".toList

/-- It subscribes to the outcome of the reference. -/
def SipMethod.REFER : SipMethod := .other "REFER".toList

/-- The methods that subscribe. -/
def SipMethod.subscribes (method : SipMethod) : Bool :=
  decide (method = .SUBSCRIBE) || decide (method = .REFER)

/-! ## One subscription -/

/-- `SingleSubscription::Role`. -/
inductive SubRole where
  | Subscriber
  | Notifier
  deriving DecidableEq

/-- `SingleSubscription::SubscriptionState`. -/
inductive SubState where
  | init
  | notifyWait
  | pending
  | active
  | terminated
  deriving DecidableEq

/-- A subscription. `ptr` is its address. -/
structure SingleSubscription where
  ptr : ℕ
  role : SubRole
  event : Str
  id : Str
  state : SubState
  pendingSubscribe : ℤ
  expires : BitVec 64
  deriving DecidableEq

/-- What the application is told. -/
inductive SubscriptionStatus where
  | SubscribeActive
  | SubscribeFailed
  | SubscribeTerminated
  | SubscribePending
  | SubscriptionTimeout
  deriving DecidableEq

/-- An event posted to the application. -/
structure SIPSubscriptionEvent where
  status : SubscriptionStatus
  expires : BitVec 32
  code : ℕ
  notifyBody : Option AmMimeBody

/-- Which handler the dialog has, and the configuration it reads. -/
structure SubConfig where
  dialog : Bool
  ignoreNotifyLowerCSeq : Bool

/-- What a step meets outside : which replies go out, the clock, and what the memory of a deleted
subscription reads as, with `none` for a state that is none of the five. -/
structure SubEnv where
  sent : BitVec 32 → Bool
  clock : ℤ
  freedState : Option SubState
  freedExpires : BitVec 64

/-- Every reply goes out, and freed memory reads as no state. -/
def sendingEnv : SubEnv :=
  ⟨fun _ => true, 1000, none, 0⟩

/-- A subscription with what its methods change of the dialog. -/
structure SubCtx where
  sub : SingleSubscription
  usages : ℤ
  remoteTag : Str
  events : List SIPSubscriptionEvent

namespace SubCtx

/-- A terminated subscription stays so. -/
def setState (c : SubCtx) (st : SubState) : SubCtx :=
  if c.sub.state = .terminated then c
  else if st = .terminated then
    { c with sub := { c.sub with state := .terminated }, usages := c.usages - 1 }
  else { c with sub := { c.sub with state := st } }

/-- `SingleSubscription::terminate`. -/
def terminate (c : SubCtx) : SubCtx :=
  c.setState .terminated

variable (cfg : SubConfig)

variable (clock : ℤ) (c : SubCtx) (reply : AmSipReply)

/-- The handler of an `AmSipSubscriptionDialog` posts an event, the other one does nothing. -/
def onFailureReply : SubCtx :=
  if cfg.dialog then { c with events := c.events ++ [⟨.SubscribeFailed, 0, reply.code, none⟩] }
  else c

/-- The Expires header of a reply, where it is there and readable. -/
def replyExpires (hdrs : Str) : Option ℤ :=
  let expiresTxt := stripHeaderParams (getHeaderSingle hdrs SIP_HDR_EXPIRES)
  if expiresTxt = [] then none else str2int expiresTxt

/-- The codes that end a subscription (RFC 5057). -/
def endsUsage (code : ℕ) : Bool :=
  code == 405 || code == 489 || code == 481 || code == 501

/-- The time until a NOTIFY's subscription expires, 0 without a readable one. -/
def notifyExpire (hdrs : Str) : ℤ :=
  let expiresTxt := getHeaderParam (getHeaderSingle hdrs SIP_HDR_SUBSCRIPTION_STATE)
    "expires".toList
  if expiresTxt = [] then 0 else (str2int expiresTxt).getD 0

/-- The Subscription-State without its parameters. -/
def subStateTxt (hdrs : Str) : Str :=
  stripHeaderParams (getHeaderSingle hdrs SIP_HDR_SUBSCRIPTION_STATE)

/-- The state that a NOTIFY with these headers sets. -/
def notifyState (hdrs : Str) : SubState :=
  if notifyExpire hdrs ≠ 0 ∧ subStateTxt hdrs = "active".toList then .active
  else if notifyExpire hdrs ≠ 0 ∧ subStateTxt hdrs = "pending".toList then .pending
  else .terminated

/-- `replyFSM` for a 2xx to a SUBSCRIBE or REFER. -/
def onSubscribeOk : SubCtx :=
  let c := if c.remoteTag = [] then { c with remoteTag := reply.toTag } else c
  match replyExpires reply.hdrs with
  | some subExpires =>
    if subExpires ≠ 0 then
      { c with sub := { c.sub with expires := BitVec.ofInt 64 (subExpires + clock) } }
    else c
  | none => if reply.cseqMethod = .SUBSCRIBE then c.terminate.onFailureReply cfg reply else c

/-- `replyFSM` for a negative final reply to a SUBSCRIBE or REFER. -/
def onSubscribeFailed : SubCtx :=
  if c.sub.state = .notifyWait then c.terminate.onFailureReply cfg reply
  else if endsUsage reply.code then c.terminate.onFailureReply cfg reply
  else c

/-- `replyFSM` for a final reply to a NOTIFY. -/
def onNotifyReply (req : AmSipRequest) (reply : AmSipReply) : SubCtx :=
  if 300 ≤ reply.code then
    if endsUsage reply.code then c.terminate.onFailureReply cfg reply else c
  else if notifyState req.hdrs = .terminated then c.terminate
  else
    let c := c.setState (notifyState req.hdrs)
    let expires := BitVec.ofInt 64 (notifyExpire req.hdrs + clock)
    { c with sub := { c.sub with expires := expires } }

/-- `pending_subscribe` goes up or down. -/
def addPending (n : ℤ) : SubCtx :=
  { c with sub := { c.sub with pendingSubscribe := c.sub.pendingSubscribe + n } }

/-- `SingleSubscription::replyFSM`. Provisional replies are ignored. -/
def replyFSM (req : AmSipRequest) (reply : AmSipReply) : SubCtx :=
  if reply.code < 200 then c
  else if req.method.subscribes then
    (if 300 ≤ reply.code then c.onSubscribeFailed cfg reply
      else c.onSubscribeOk cfg clock reply).addPending (-1)
  else if reply.cseqMethod = .NOTIFY then c.onNotifyReply cfg clock req reply
  else c

/-- `requestFSM` for a SUBSCRIBE or REFER. -/
def onSubscribe : SubCtx :=
  if c.sub.state = .init then c.setState .notifyWait else c

end SubCtx

/-! ## The subscriptions of a dialog -/

/-- Received requests are of the server side, sent ones of the client side. -/
inductive Side where
  | uas
  | uac
  deriving DecidableEq

/-- A request given to a subscription. `accepted` if it counts in `pending_subscribe`. -/
structure Assigned where
  ptr : ℕ
  accepted : Bool
  deriving DecidableEq

/-- A final reply to a request of a subscription. -/
structure SubAnswer where
  side : Side
  cseq : BitVec 32
  ptr : ℕ
  code : ℕ
  deriving DecidableEq

/-- `cseqMap` are `uas_cseq_map` and `uac_cseq_map`, `trans` the dialog's `uas_trans` and
`uac_trans`. -/
structure AmSipSubscription where
  remoteTag : Str
  callid : Str
  cseq : BitVec 32
  rCseq : Option (BitVec 32)
  trans : Side → TransMap
  usages : ℤ
  subs : List SingleSubscription
  nextPtr : ℕ
  cseqMap : Side → OrdMap ℕ ℕ
  allowSublessNotify : Bool
  events : List SIPSubscriptionEvent
  dangling : Bool
  owed : Side → OrdMap ℕ Assigned
  due : List SubAnswer
  done : List SubAnswer

namespace AmSipSubscription

variable (cfg : SubConfig) (env : SubEnv)

variable (s : AmSipSubscription)

/-- The subscription at an address, if it is not deleted. -/
def object (p : ℕ) : Option SingleSubscription :=
  s.subs.find? fun sub => sub.ptr = p

/-- Call a method of the subscription at `p`. -/
def withObject (p : ℕ) (f : SubCtx → SubCtx) : AmSipSubscription :=
  match s.object p with
  | none => { s with dangling := true }
  | some sub =>
    let c := f ⟨sub, s.usages, s.remoteTag, s.events⟩
    { s with
      subs := replaceKey SingleSubscription.ptr p (some c.sub) s.subs
      usages := c.usages
      remoteTag := c.remoteTag
      events := c.events }

variable (side : Side)

/-- Another map of a side. -/
def setMap (m : OrdMap ℕ ℕ) : AmSipSubscription :=
  { s with cseqMap := update s.cseqMap side m }

/-- Other transactions of a side. -/
def setTrans (m : TransMap) : AmSipSubscription :=
  { s with trans := update s.trans side m }

variable (cseq : BitVec 32)

/-- The request goes to the subscription at `p`. -/
def assign (p : ℕ) : AmSipSubscription :=
  { s with
    cseqMap := update s.cseqMap side ((s.cseqMap side).insert cseq.toNat p)
    owed := update s.owed side ((s.owed side).insert cseq.toNat ⟨p, false⟩) }

/-- `pending_subscribe++` for a request. -/
def accept (p : ℕ) : AmSipSubscription :=
  { s.withObject p (·.addPending 1) with
    owed := update s.owed side ((s.owed side).insert cseq.toNat ⟨p, true⟩) }

/-- The subscription is there and not terminated. -/
def isLive (p : ℕ) : Bool :=
  (s.object p).any fun sub => sub.state ≠ .terminated

/-- Record that a reply to the request comes to the subscriptions. -/
def noteReply (code : ℕ) : AmSipSubscription :=
  if code < 200 then s
  else
    match (s.owed side).find? cseq.toNat with
    | none => s
    | some a =>
      { s with
        owed := update s.owed side ((s.owed side).erase cseq.toNat)
        due := if s.isLive a.ptr then s.due ++ [⟨side, cseq, a.ptr, code⟩] else s.due }

/-- Record that `replyFSM` of a subscription works on the reply. -/
def noteDone (p code : ℕ) : AmSipSubscription :=
  if code < 200 then s
  else if s.isLive p then { s with done := s.done ++ [⟨side, cseq, p, code⟩] } else s

/-- `AmBasicSipDialog::reply` with a reply for which the handler does `hook`. -/
def sendReply (hook : AmSipSubscription → AmSipSubscription) (s : AmSipSubscription)
    (req : AmSipRequest) (code : ℕ) : AmSipSubscription :=
  match (s.trans .uas).get req.cseq with
  | none => s
  | some _ =>
    if env.sent req.cseq then
      let s := hook s
      if 200 ≤ code ∧ req.method ≠ .CANCEL then
        s.setTrans .uas (TransMap.remove (s.trans .uas) req.cseq)
      else s
    else s

/-- All entries of the subscription are erased. -/
def removeSubFromUACCSeqMap (p : ℕ) : AmSipSubscription :=
  ((s.cseqMap .uac).entries.filter fun e => e.2 = p).foldl
    (fun s e => s.setMap .uac ((s.cseqMap .uac).erase e.1)) s

/-- One round of `removeSubFromUASCSeqMap`. The hook of the reply finds no entry any more. -/
def dropUas (key : ℕ) : AmSipSubscription :=
  let s := s.setMap .uas ((s.cseqMap .uas).erase key)
  match (s.trans .uas).get (BitVec.ofNat 32 key) with
  | none => s
  | some req => s.sendReply env (·.noteReply .uas req.cseq 481) req 481

/-- All entries are erased, and their requests answered by 481. -/
def removeSubFromUASCSeqMap (p : ℕ) : AmSipSubscription :=
  ((s.cseqMap .uas).entries.filter fun e => e.2 = p).foldl (fun s e => s.dropUas env e.1) s

/-- The subscription is deleted, after its entries. -/
def removeSubscription (p : ℕ) : AmSipSubscription :=
  let s := (s.removeSubFromUACCSeqMap p).removeSubFromUASCSeqMap env p
  { s with subs := replaceKey SingleSubscription.ptr p none s.subs }

/-- `onReplyIn` and `onReplySent`, for a request of this side. The result is whether a subscription
took it. -/
def onReply (s : AmSipSubscription) (req : AmSipRequest) (reply : AmSipReply) :
    AmSipSubscription × Bool :=
  let s := s.noteReply side req.cseq reply.code
  match (s.cseqMap side).find? req.cseq.toNat with
  | none => (s, false)
  | some p =>
    let s := s.setMap side ((s.cseqMap side).erase req.cseq.toNat)
    let s := (s.noteDone side req.cseq p reply.code).withObject p
      (·.replyFSM cfg env.clock req reply)
    match s.object p with
    | none => ({ s with dangling := true }, true)
    | some sub => (if sub.state = .terminated then s.removeSubscription env p else s, true)

variable (req : AmSipRequest)

/-- `AmSipSubscription::onReplySent`. -/
def onReplySent (reply : AmSipReply) : AmSipSubscription :=
  (s.onReply cfg env .uas req reply).1

/-- `AmSipSubscription::onReplyIn`. Returns whether the reply is handled. -/
def onReplyIn (reply : AmSipReply) : AmSipSubscription × Bool :=
  let (s, found) := s.onReply cfg env .uac req reply
  (s, found || (decide (req.method = .NOTIFY) && s.allowSublessNotify))

/-- The reply that `AmBasicSipDialog::reply` makes. -/
def newReply (code : ℕ) (hdrs : Str) : AmSipReply :=
  ⟨code, req.method, req.cseq, 0, [], hdrs, AmMimeBody.none⟩

/-- `AmBasicSipDialog::reply`. -/
def reply (code : ℕ) (hdrs : Str) : AmSipSubscription :=
  s.sendReply env (fun s => s.onReplySent cfg env req (newReply req code hdrs)) req code

/-- The subscription that matches. -/
def matching (role : SubRole) (event id : Str) : Option SingleSubscription :=
  let noId := decide (id = []) && decide (event = "refer".toList)
  s.subs.find? fun sub => sub.role = role ∧ sub.event = event ∧ (noId ∨ sub.id = id)

/-- A terminated subscription that matches is removed. -/
def findSubscription (role : SubRole) (event id : Str) : AmSipSubscription × Option ℕ :=
  match s.matching role event id with
  | none => (s, none)
  | some sub =>
    if sub.state = .terminated then (s.removeSubscription env sub.ptr, none)
    else (s, some sub.ptr)

/-- The event package of a request and its id. -/
def eventOf : Str × Str :=
  let event := getHeaderSingle req.hdrs SIP_HDR_EVENT
  (stripHeaderParams event, getHeaderParam event "id".toList)

/-- `makeSubscription` : only SUBSCRIBE and REFER make one. -/
def makeSubscription (uac : Bool) : Option SingleSubscription :=
  let role := if uac then SubRole.Subscriber else .Notifier
  if req.method = .SUBSCRIBE then
    some ⟨s.nextPtr, role, (eventOf req).1, (eventOf req).2, .init, 0, 0⟩
  else if req.method = .REFER then
    some ⟨s.nextPtr, role, "refer".toList, int2str req.cseq, .init, 0, 0⟩
  else none

/-- A new subscription, and its address. -/
def createSubscription (uac : Bool) : AmSipSubscription × Option ℕ :=
  match s.makeSubscription req uac with
  | none => (s, none)
  | some sub =>
    ({ s with
      usages := s.usages + 1
      subs := s.subs ++ [sub]
      nextPtr := s.nextPtr + 1 }, some sub.ptr)

/-- The role that the dialog's own side has for a request of this method. -/
def roleOf (method : SipMethod) (uac : Bool) : Option SubRole :=
  if method = .SUBSCRIBE then some (if uac then .Subscriber else .Notifier)
  else if method = .NOTIFY then some (if uac then .Notifier else .Subscriber)
  else none

/-- Whether a request makes a subscription without a search for one. -/
def createsNew (toTag : Str) (uac : Bool) : Bool :=
  (!uac && decide (toTag = [])) || (uac && decide (s.remoteTag = [])) ||
    decide (req.method = .REFER) || s.subs.isEmpty

/-- The subscription of a request, found or made. -/
def matchSubscription (toTag : Str) (uac : Bool) : AmSipSubscription × Option ℕ :=
  if s.createsNew req toTag uac then s.createSubscription req uac
  else
    match roleOf req.method uac with
    | none => (s, none)
    | some role =>
      let (s, found) := s.findSubscription env role (eventOf req).1 (eventOf req).2
      if found = none ∧ req.method = .SUBSCRIBE then s.createSubscription req uac else (s, found)

/-- The status that is told for a state. -/
def statusOf : Option SubState → SubscriptionStatus
  | some .pending => .SubscribePending
  | some .active => .SubscribeActive
  | some .terminated => .SubscribeTerminated
  | _ => .SubscribeFailed

/-- The event for a NOTIFY, from a subscription's state and time of expiry. -/
def notifyEvent (state : Option SubState) (expires : BitVec 64) : SIPSubscriptionEvent :=
  { status := statusOf state
    expires := if state = some .pending ∨ state = some .active then expires.setWidth 32 else 0
    code := 0
    notifyBody := if req.body.empty then none else some req.body }

/-- The event is made after the reply, from a subscription that may be deleted. -/
def onNotify (p : ℕ) (req : AmSipRequest) : AmSipSubscription :=
  if cfg.dialog then
    let s := s.reply cfg env req 200 []
    match s.object p with
    | none =>
      { s with
        dangling := true
        events := s.events ++ [notifyEvent req env.freedState env.freedExpires] }
    | some sub => { s with events := s.events ++ [notifyEvent req (some sub.state) sub.expires] }
  else s

/-- `SingleSubscription::requestFSM`. -/
def requestFSM (p : ℕ) (req : AmSipRequest) : AmSipSubscription :=
  if req.method.subscribes then s.withObject p SubCtx.onSubscribe
  else if req.method = .NOTIFY then s.onNotify cfg env p req
  else s

/-- `SingleSubscription::onRequestIn`. -/
def subOnRequestIn (sub : SingleSubscription) (req : AmSipRequest) (retryAfter : Str) :
    AmSipSubscription × Bool :=
  if req.method.subscribes then
    if sub.pendingSubscribe ≠ 0 then (s.reply cfg env req 500 retryAfter, false)
    else ((s.accept .uas req.cseq sub.ptr).requestFSM cfg env sub.ptr req, true)
  else (s.requestFSM cfg env sub.ptr req, true)

/-- The result is whether the request is for the application. -/
def onRequestIn (toTag retryAfter : Str) : AmSipSubscription × Bool :=
  let (s, found) := s.matchSubscription env req toTag false
  match found with
  | none =>
    if req.method = .NOTIFY ∧ s.allowSublessNotify then (s, true)
    else (s.reply cfg env req 481 [], false)
  | some p =>
    match s.object p with
    | none => ({ s with dangling := true }, false)
    | some sub =>
      if sub.state = .terminated then (s.reply cfg env req 481 [], false)
      else (s.assign .uas req.cseq p).subOnRequestIn cfg env sub req retryAfter

/-- `AmSipSubscription::onRequestSent`. -/
def onRequestSent : AmSipSubscription :=
  let (s, found) := s.matchSubscription env req [] true
  match found with
  | none => s
  | some p =>
    let s := s.assign .uac req.cseq p
    let s := if req.method.subscribes then s.accept .uac req.cseq p else s
    s.requestFSM cfg env p req

/-- `AmSipSubscription::onTimeout`, and the event that the dialog's own handler posts. -/
def onTimeout (p : ℕ) : AmSipSubscription :=
  let s :=
    match s.object p with
    | none => s
    | some _ => (s.withObject p SubCtx.terminate).removeSubscription env p
  if cfg.dialog then { s with events := s.events ++ [⟨.SubscriptionTimeout, 0, 0, none⟩] } else s

/-- `AmSipSubscription::terminate` : no subscription leaves the list. -/
def terminate (s : AmSipSubscription) : AmSipSubscription :=
  s.subs.foldl (fun s sub => s.withObject sub.ptr SubCtx.terminate) s

/-! ## The dialog -/

/-- `AmBasicSipDialog::onRxReqSanity`. -/
def passesSanity : Bool :=
  !(decide (s.remoteTag ≠ []) && decide (req.fromTag ≠ []) &&
      decide (req.fromTag ≠ s.remoteTag)) &&
    (!(s.rCseq.any fun r => decide (req.cseq ≤ r)) ||
      (decide (req.method = .NOTIFY) && cfg.ignoreNotifyLowerCSeq))

/-- `AmBasicSipDialog::onRxRequest`, for a request of a subscription. -/
def onRxRequest (toTag retryAfter : Str) : AmSipSubscription :=
  if s.passesSanity cfg req then
    let s := { s with rCseq := some req.cseq }
    let s := s.setTrans .uas (TransMap.set (s.trans .uas) req.cseq req)
    let s := if s.callid = [] then { s with callid := req.callid, remoteTag := req.fromTag } else s
    (s.onRequestIn cfg env req toTag retryAfter).1
  else s

/-- `AmBasicSipDialog::onRxReply`. -/
def onRxReply (reply : AmSipReply) : AmSipSubscription :=
  match (s.trans .uac).get reply.cseq with
  | none => s
  | some req =>
    let s := (s.onReplyIn cfg env req reply).1
    if 200 ≤ reply.code ∧ (reply.cseqMethod ≠ .INVITE ∨ 300 ≤ reply.code) then
      s.setTrans .uac (TransMap.remove (s.trans .uac) reply.cseq)
    else s

/-- The request that `AmBasicSipDialog::sendRequest` makes. -/
def newRequest (method : SipMethod) (hdrs : Str) : AmSipRequest :=
  ⟨method, s.cseq, 0, 0, s.callid, [], hdrs, AmMimeBody.none⟩

/-- `AmBasicSipDialog::onRequestTxed`. -/
def onRequestTxed : AmSipSubscription :=
  let s := s.onRequestSent cfg env req
  if req.method ≠ .ACK then
    { s.setTrans .uac (TransMap.set (s.trans .uac) req.cseq req) with cseq := s.cseq + 1 }
  else s.setTrans .uac (TransMap.remove (s.trans .uac) req.cseq)

end AmSipSubscription

/-- The calls from outside. A request to send may fail, the other sends are in the environment. -/
inductive SubEv where
  | rxRequest (req : AmSipRequest) (toTag retryAfter : Str)
  | rxReply (reply : AmSipReply)
  | sendRequest (method : SipMethod) (hdrs : Str) (sent : Bool)
  | reply (cseq : BitVec 32) (code : ℕ) (hdrs : Str)
  | timeout (p : ℕ)
  | terminate
  | subscriptionExists (role : SubRole) (event id : Str)
  | allowUnsolicitedNotify (allow : Bool)

namespace AmSipSubscription

variable (cfg : SubConfig)

/-- A dialog without a subscription. -/
def init (callid remoteTag : Str) (cseq : BitVec 32) (allow : Bool) : AmSipSubscription :=
  { remoteTag, callid, cseq
    rCseq := none
    trans := fun _ => OrdMap.empty
    usages := 0
    subs := []
    nextPtr := 0
    cseqMap := fun _ => OrdMap.empty
    allowSublessNotify := allow
    events := []
    dangling := false
    owed := fun _ => OrdMap.empty
    due := []
    done := [] }

/-- The application answers a request that waits for it. -/
def answer (env : SubEnv) (s : AmSipSubscription) (cseq : BitVec 32) (code : ℕ) (hdrs : Str) :
    AmSipSubscription :=
  match (s.trans .uas).get cseq with
  | none => s
  | some req => s.reply cfg env req code hdrs

/-- A call from outside. -/
def step (s : AmSipSubscription) : SubEnv × SubEv → AmSipSubscription
  | (env, .rxRequest req toTag retryAfter) => s.onRxRequest cfg env req toTag retryAfter
  | (env, .rxReply reply) => s.onRxReply cfg env reply
  | (env, .sendRequest method hdrs sent) =>
    if sent then s.onRequestTxed cfg env (s.newRequest method hdrs) else s
  | (env, .reply cseq code hdrs) => s.answer cfg env cseq code hdrs
  | (env, .timeout p) => s.onTimeout cfg env p
  | (_, .terminate) => s.terminate
  | (env, .subscriptionExists role event id) => (s.findSubscription env role event id).1
  | (_, .allowUnsolicitedNotify allow) => { s with allowSublessNotify := allow }

end AmSipSubscription

end Sems
