import Mathlib

/-!
# Session updates of a call leg

A call leg of the SBC changes its session with re-INVITEs : hold, resume, and the reconnection to
another leg. Each change is a `SessionUpdate` (`apps/sbc/SessionUpdate.h`), at most one runs, and
the others wait in `pendingUpdates` (`apps/sbc/CallLeg.cpp`), behind the one in progress.

An update is applied when no INVITE of the dialog is open. It is tried again after a 491 when a
timer fires, and the rest of the queue is taken up by an event that the leg posts to itself when a
transaction ends (`onTransFinished`). Whether the re-INVITE of an update goes out is the
`ApplyOutcome`. The log and the owners of the transactions are for the statements.
-/

namespace Sems

/-- An update. `requestCseq` is the CSeq of its request, a signed number in the source, -1 if there
is none. -/
structure SessionUpdate where
  id : ℕ
  requestCseq : BitVec 32
  deriving DecidableEq

namespace SessionUpdate

/-- `setCSeq`. -/
def setCSeq (u : SessionUpdate) (cseq : BitVec 32) : SessionUpdate :=
  { u with requestCseq := cseq }

/-- The request was sent out. -/
def hasCSeq (u : SessionUpdate) : Bool :=
  0 ≤ u.requestCseq.toInt

/-- `hasCSeq` with an argument. -/
def hasThisCSeq (u : SessionUpdate) (cseq : BitVec 32) : Bool :=
  u.requestCseq = cseq

/-- `reset`. -/
def reset (u : SessionUpdate) : SessionUpdate :=
  u.setCSeq (-1)

end SessionUpdate

/-- What applying an update does : the re-INVITE goes out, or not, or not and a BYE goes out that
stops the call. -/
inductive ApplyOutcome where
  | sent
  | failed
  | stopped
  deriving DecidableEq

/-- An open client transaction, and the update it is for. -/
structure UacTrans where
  cseq : BitVec 32
  invite : Bool
  owner : Option ℕ
  deriving DecidableEq

/-- An open server transaction. -/
structure UasTrans where
  cseq : BitVec 32
  invite : Bool
  deriving DecidableEq

/-- What happened to the updates. `applied` says whether a transaction was started, and `replied` is
a final reply to one of the update. -/
inductive UpdateLog where
  | queued (id : ℕ)
  | applied (id : ℕ) (started : Bool)
  | replied (id : ℕ) (code : ℕ)
  | left (id : ℕ)
  deriving DecidableEq

/-- What the updates depend on. `rCseq` is the last CSeq of the remote side, `posted` the number of
`ApplyPendingUpdatesEvent`s, `nextId` the number of updates so far. `ignoreNotifyLowerCSeq` is an
option of the configuration. -/
structure UpdateQueue where
  ignoreNotifyLowerCSeq : Bool
  cseq : BitVec 32
  rCseq : Option (BitVec 32)
  uacTrans : List UacTrans
  uasTrans : List UasTrans
  pendingUpdates : List SessionUpdate
  timerStarted : Bool
  posted : ℕ
  nextId : ℕ
  log : List UpdateLog

/-- Who handles a reply : the leg, the authentication of `SBCCallLeg`, which sends the request
again, or a call control module that stops the processing. -/
inductive ReplyHandler where
  | leg
  | auth
  | callControl
  deriving DecidableEq

/-- The methods of a received request that the dialog tells apart here. -/
inductive RxMethod where
  | invite
  | notify
  | other
  deriving DecidableEq

/-- What happens to the leg. With `accepted` neither an open INVITE nor 100rel makes the dialog
refuse a request. -/
inductive UpdateEv where
  | updateSession (outcome : ApplyOutcome)
  | applyPending (outcome : ℕ → ApplyOutcome)
  | request (invite : Bool)
  | rxReply (cseq : BitVec 32) (code : ℕ) (handler : ReplyHandler)
  | ack (cseq : BitVec 32)
  | rxRequest (cseq : BitVec 32) (method : RxMethod) (accepted : Bool)
  | finalReply (cseq : BitVec 32)
  | timer

namespace UpdateQueue

/-- A new dialog starts with CSeq 10. -/
def init (ignoreNotifyLowerCSeq : Bool) : UpdateQueue where
  ignoreNotifyLowerCSeq := ignoreNotifyLowerCSeq
  cseq := 10
  rCseq := none
  uacTrans := []
  uasTrans := []
  pendingUpdates := []
  timerStarted := false
  posted := 0
  nextId := 0
  log := []

variable (s : UpdateQueue)

/-- Adds to the log. -/
def note (entry : UpdateLog) : UpdateQueue :=
  { s with log := s.log ++ [entry] }

/-! ## Transactions -/

/-- `canUpdateSession` : no INVITE is open. -/
def canUpdateSession : Bool :=
  !(s.uacTrans.any UacTrans.invite || s.uasTrans.any UasTrans.invite)

/-- `sendRequest` of the dialog, when the request goes out. -/
def sendRequest (invite : Bool) (owner : Option ℕ) : UpdateQueue :=
  { s with
    uacTrans := ⟨s.cseq, invite, owner⟩ :: s.uacTrans.filter fun t => t.cseq ≠ s.cseq
    cseq := s.cseq + 1 }

variable (cseq : BitVec 32)

/-- The UAC transaction is erased. -/
def eraseUac : UpdateQueue :=
  { s with uacTrans := s.uacTrans.filter fun t => t.cseq ≠ cseq }

/-- `onTransFinished`. -/
def onTransFinished : UpdateQueue :=
  if s.pendingUpdates = [] ∨ s.canUpdateSession = false then s
  -- it is planned to apply the updates later on
  else if s.timerStarted then s
  else { s with posted := s.posted + 1 }

/-! ## Applying updates -/

/-- `apply` : the update keeps what the leg returns, `dlg->cseq - 1` or -1. -/
def apply (u : SessionUpdate) (outcome : ApplyOutcome) : UpdateQueue × SessionUpdate :=
  match outcome with
  | .sent =>
    let s := s.sendRequest true (some u.id)
    (s.note (.applied u.id true), u.setCSeq (s.cseq - 1))
  | .failed => (s.note (.applied u.id false), u.setCSeq (-1))
  | .stopped => ((s.sendRequest false none).note (.applied u.id false), u.setCSeq (-1))

/-- A new update, with the number `s.nextId`. -/
def newUpdate : UpdateQueue :=
  { s with nextId := s.nextId + 1 }.note (.queued s.nextId)

/-- `updateSession` : the update is applied or has to wait. -/
def updateSession (u : SessionUpdate) (outcome : ApplyOutcome) : UpdateQueue :=
  if s.canUpdateSession = false ∨ s.pendingUpdates ≠ [] then
    { s with pendingUpdates := s.pendingUpdates ++ [u] }
  else
    let (s, u) := s.apply u outcome
    if u.hasCSeq then { s with pendingUpdates := s.pendingUpdates ++ [u] }
    else s.note (.left u.id)

/-- The loop of `applyPendingUpdate`, over the updates that are left. -/
def applyAll (outcome : ℕ → ApplyOutcome) : List SessionUpdate → UpdateQueue → UpdateQueue
  | [], s => { s with pendingUpdates := [] }
  | u :: rest, s =>
    let (s, u) := s.apply u (outcome u.id)
    if u.hasCSeq then { s with pendingUpdates := u :: rest }
    else applyAll outcome rest (s.note (.left u.id))

/-- `applyPendingUpdate`. -/
def applyPendingUpdate (outcome : ℕ → ApplyOutcome) : UpdateQueue :=
  if s.pendingUpdates = [] ∨ s.canUpdateSession = false then s
  else applyAll outcome s.pendingUpdates s

/-- The `ApplyPendingUpdatesEvent`. -/
def onApplyEvent (outcome : ℕ → ApplyOutcome) : UpdateQueue :=
  if s.posted = 0 then s else { s with posted := s.posted - 1 }.applyPendingUpdate outcome

/-- `SessionUpdateTimer::fire`. -/
def fire : UpdateQueue :=
  if s.timerStarted then { s with timerStarted := false, posted := s.posted + 1 } else s

/-! ## Replies and transactions that end -/

/-- The part of `CallLeg::onSipReply` for the update in progress. -/
def onSipReply (cseq : BitVec 32) (code : ℕ) : UpdateQueue :=
  match s.pendingUpdates with
  | [] => s
  | u :: rest =>
    if 200 ≤ code ∧ u.hasThisCSeq cseq then
      if code = 491 then { s with pendingUpdates := u.reset :: rest, timerStarted := true }
      else { s with pendingUpdates := rest }.note (.left u.id)
    else s

/-- The authentication of `SBCCallLeg::onSipReply` sends the request again after a challenge. -/
def handleReply (t : UacTrans) (code : ℕ) (handler : ReplyHandler) : UpdateQueue :=
  match handler with
  | .leg => s.onSipReply t.cseq code
  | .auth =>
    if code = 401 ∨ code = 407 then s.sendRequest t.invite t.owner else s.onSipReply t.cseq code
  | .callControl => s

/-- A final reply is noted for the update the transaction is for. -/
def noteReply (t : UacTrans) (code : ℕ) : UpdateQueue :=
  match t.owner with
  | some id => if 200 ≤ code then s.note (.replied id code) else s
  | none => s

/-- `AmBasicSipDialog::onRxReply`. After a 2xx the INVITE waits for its ACK. -/
def onRxReply (code : ℕ) (handler : ReplyHandler) : UpdateQueue :=
  match s.uacTrans.find? fun t => t.cseq = cseq with
  | none => s
  | some t =>
    let s := (s.noteReply t code).handleReply t code handler
    if 200 ≤ code ∧ (t.invite = false ∨ 300 ≤ code) then (s.eraseUac cseq).onTransFinished else s

/-- `onRequestTxed` for the ACK that `send_200_ack` sends. -/
def sendAck : UpdateQueue :=
  if s.uacTrans.any fun t => t.cseq = cseq then (s.eraseUac cseq).onTransFinished else s

/-- A NOTIFY may have a lower CSeq if the configuration says so. -/
def refusesCSeq (method : RxMethod) : Bool :=
  s.rCseq.any (fun r => cseq ≤ r) && !(method = .notify && s.ignoreNotifyLowerCSeq)

/-- `AmBasicSipDialog::onRxRequest`. -/
def onRxRequest (method : RxMethod) (accepted : Bool) : UpdateQueue :=
  if s.refusesCSeq cseq method then s
  else if accepted then
    { s with
      rCseq := some cseq
      uasTrans := ⟨cseq, method = .invite⟩ :: s.uasTrans.filter fun t => t.cseq ≠ cseq }
  else { s with rCseq := some cseq }

/-- `onReplyTxed` for a final reply. -/
def sendFinalReply : UpdateQueue :=
  if s.uasTrans.any fun t => t.cseq = cseq then
    { s with uasTrans := s.uasTrans.filter fun t => t.cseq ≠ cseq }.onTransFinished
  else s

/-- One step of the leg. -/
def step (ev : UpdateEv) : UpdateQueue :=
  match ev with
  | .updateSession outcome => s.newUpdate.updateSession ⟨s.nextId, -1⟩ outcome
  | .applyPending outcome => s.onApplyEvent outcome
  | .request invite => s.sendRequest invite none
  | .rxReply cseq code handler => s.onRxReply cseq code handler
  | .ack cseq => s.sendAck cseq
  | .rxRequest cseq method accepted => s.onRxRequest cseq method accepted
  | .finalReply cseq => s.sendFinalReply cseq
  | .timer => s.fire

/-- The queue of a new leg after some events. -/
def run (ignoreNotifyLowerCSeq : Bool) (evs : List UpdateEv) : UpdateQueue :=
  evs.foldl step (init ignoreNotifyLowerCSeq)

end UpdateQueue

end Sems
