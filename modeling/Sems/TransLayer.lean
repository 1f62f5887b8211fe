import Sems.TransTable

/-!
# The transaction layer

The client side of `_trans_layer` (`core/sip/trans_layer.cpp`) : requests and their failover to
the next target, the replies to them, CANCEL, and the timers.

Each function works on one transaction of a bucket that is locked. What it does is an `Effect` :
the transaction as it is left, the transactions it adds, what it sends or hands to the UA, and what
the thread still does after it has unlocked the bucket.
-/

namespace Sems

/-- What is sent, and what is handed to the UA. -/
inductive TransLog where
  /-- `handle_sip_reply`, for the request of a transaction. -/
  | reply (request : Option ℕ) (dialogId : Str) (code : ℕ)
  /-- A transaction sends its request to a target. -/
  | request (addr : ℕ) (msg : TransMsg)
  /-- It sends its request again. -/
  | resend (addr : ℕ) (msg : TransMsg)
  /-- The ACK of a non-200 reply. -/
  | ack (addr : ℕ)
  /-- What is in the retransmission buffer. -/
  | retransmit (addr : ℕ)
  /-- `handle_reply_timeout`. -/
  | replyTimeout (addr : ℕ)

/-- What a thread does after it has unlocked the bucket. -/
inductive Call where
  /-- `cancel` for an abandoned transaction. -/
  | cancel (addr : ℕ)
  /-- `cancel` for a transaction whose timer C has expired. -/
  | cancelTimeout (addr : ℕ)
  /-- The last part of timer C, after `cancel`. -/
  | timeout (addr : ℕ)
  deriving DecidableEq

structure Effect where
  /-- The transaction, none when it is removed. -/
  self : Option SipTrans
  added : List SipTrans
  log : List TransLog
  calls : List Call

variable (t : SipTrans)

/-- Leave the transaction in the bucket. -/
@[simp]
def Effect.keep : Effect :=
  ⟨some t, [], [], []⟩

@[simp]
def Effect.removed : Effect :=
  ⟨none, [], [], []⟩

/-- With something sent or handed on before. -/
@[simp]
def Effect.after (e : Effect) (log : List TransLog) : Effect :=
  { e with log := log ++ e.log }

/-! ## The next target -/

/-- What the transport layer does with a target. -/
structure Attempt where
  blacklisted : Bool
  /-- `set_trsp_socket`. -/
  socket : Option TrspSocket
  /-- A new message can be made. -/
  generated : Bool
  /-- The R-URI with the address of the target. -/
  ruri : Str
  branch : Str
  sent : Bool

/-- The attempts of one call, by the number of targets left after them. -/
abbrev Attempts := ℕ → Attempt

/-- The message `generate_and_parse_new_msg` makes for a target. -/
def TransMsg.generate (msg : TransMsg) (flags : TransFlags) (a : Attempt) (sock : TrspSocket)
    (tgt : SipTarget) : TransMsg :=
  { msg with
    ruriStr := if flags.nextHopRuri then a.ruri else msg.ruriStr
    branch := a.branch
    host := sock.ip
    port := sock.port
    remoteIp := tgt.ss
    localSocket := sock }

/-- `sip_target_set::get_next`. -/
def getNext (net : Attempts) (flags : TransFlags) :
    List SipTarget → Option (SipTarget × List SipTarget)
  | [] => none
  | tgt :: ts =>
    if !flags.disableBl && (net ts.length).blacklisted then getNext net flags ts else some (tgt, ts)

namespace SipTrans

/-- The timers once the request is sent. -/
def awaitTimers (tr : SipTrans) (retr deadline : TimerType) : Timers :=
  let ts := if !tr.msg.localSocket.reliable then tr.timers.put ⟨retr, 0⟩ else tr.timers
  let ts := if (ts.get deadline).isNone then ts.put ⟨deadline, 0⟩ else ts
  if tr.targets.getD [] ≠ [] then ts.put ⟨.STIMER_M, 0⟩ else ts

/-- The end of `try_next_ip`. -/
def resent (tr : SipTrans) : SipTrans :=
  { tr with
    state := if tr.msg.method = .INVITE then .TS_CALLING else .TS_TRYING
    timers :=
      if tr.msg.method = .INVITE then tr.awaitTimers .STIMER_A .STIMER_B
      else tr.awaitTimers .STIMER_E .STIMER_F }

/-- The loop of `try_next_ip` without a new transaction : the transaction, what was sent, and
whether there was a target. -/
def resend (net : Attempts) (tr : SipTrans) : List SipTarget → SipTrans × List TransLog × Bool
  | [] => ({ tr with targets := some [] }, [], false)
  | tgt :: ts =>
    let a := net ts.length
    if !tr.flags.disableBl && a.blacklisted then resend net tr ts
    else
      let tr := { tr with targets := some ts, msg.remoteIp := tgt.ss }
      match a.socket with
      | none => (tr, [], false)
      | some sock =>
        if (tr.flags.nextHopRuri || sock != tr.msg.localSocket) && !a.generated then
          ({ tr with msg.localSocket := sock }, [], false)
        else
          let msg :=
            if tr.flags.nextHopRuri || sock != tr.msg.localSocket then
              tr.msg.generate tr.flags a sock tgt
            else { tr.msg with branch := a.branch }
          let tr := { tr with msg := msg }
          if a.sent then (tr.resent, [.request tr.addr tr.msg], true) else resend net tr ts

/-- The transaction of `copy_uac_trans`, with the targets and the timer B or F. -/
def clone (tr : SipTrans) (addr : ℕ) (msg : TransMsg) (ts : List SipTarget) : SipTrans :=
  let n : SipTrans :=
    { SipTrans.new addr tr.flags tr.type msg with
      dialogId := tr.dialogId
      targets := some ts
      request := tr.request }
  match tr.getTimer .STIMER_B with
  | none => n
  | some timer => n.putTimer timer

end SipTrans

/-- What `try_next_ip` leaves : the transaction, the new one, what was sent, and whether there
was a target. -/
structure NextIp where
  tr : SipTrans
  clone : Option SipTrans
  log : List TransLog
  ok : Bool

variable (net : Attempts) (addr : ℕ) (tr : SipTrans)

/-- The loop of `try_next_ip` with a new transaction, whose address is `addr`. -/
def cloneNext (targets : List SipTarget) : NextIp :=
  match getNext net tr.flags targets with
  | none => ⟨{ tr with targets := some [] }, none, [], false⟩
  | some (tgt, ts) =>
    let a := net ts.length
    let failed : NextIp := ⟨{ tr with targets := some ts }, none, [], false⟩
    match a.socket with
    | none => failed
    | some sock =>
      if !a.generated then failed
      else
        let n := tr.clone addr (tr.msg.generate tr.flags a sock tgt) ts
        let tr := { tr with targets := none }
        if a.sent then ⟨tr, some n.resent, [.request addr n.msg], true⟩
        else
          -- the new transaction is in the bucket, and stays there
          let r := n.resend net ts
          ⟨tr, some r.1, r.2.1, r.2.2⟩

def tryNextIp (useNewTrans : Bool) : NextIp :=
  let tr := tr.clearTimer .STIMER_M
  match tr.targets with
  | none => ⟨tr, none, [], false⟩
  | some targets =>
    if useNewTrans then cloneNext net addr tr targets
    else
      let r := tr.resend net targets
      ⟨r.1, none, r.2.1, r.2.2⟩

/-- A failover, and what is done with the transaction after it. -/
def NextIp.andThen (n : NextIp) (e : Effect) : Effect :=
  { e with added := n.clone.toList ++ e.added, log := n.log ++ e.log }

/-! ## Replies -/

open Effect

/-- `timeout`. -/
def timeout : Effect :=
  let t := t.resetAllTimers.setState .TS_TERMINATED
  (if t.flags.disableBl then removed else .keep (t.resetTimer .STIMER_BL)).after
    [.reply t.request t.dialogId 408]

/-- The end of the provisional replies : the transaction, and whether the reply is passed on. -/
def passProvisional : Effect × Bool :=
  if t.msg.method ≠ .CANCEL then
    (.keep (if t.msg.method = .INVITE then t.resetTimer .STIMER_C else t), true)
  else (.keep t, false)

def provisionalReply : Effect × Bool :=
  match t.state with
  | .TS_CALLING => passProvisional (t.resetAllTimers.setState .TS_PROCEEDING)
  | .TS_TRYING => passProvisional (t.setState .TS_PROCEEDING)
  | .TS_PROCEEDING => passProvisional t
  | .TS_ABANDONED => ({ keep t.disableBl with calls := [.cancel t.addr] }, false)
  | .TS_TERMINATED => (.keep t.disableBl, false)
  | _ => (.keep t, false)

/-- The INVITE has its error reply. -/
def SipTrans.complete : SipTrans :=
  ((t.clearTimer .STIMER_C).setState .TS_COMPLETED).resetTimer .STIMER_D

variable (reply : TransReply)

/-- A final error reply to an INVITE, after the failover. -/
def inviteError (forgetReply : Bool) : Effect × Bool :=
  match t.state with
  | .TS_CALLING => ((keep t.resetAllTimers.complete).after [.ack t.addr], !forgetReply)
  | .TS_PROCEEDING => ((keep t.complete).after [.ack t.addr], !forgetReply)
  | .TS_ABANDONED | .TS_TERMINATED =>
    if reply.localSocket.isNone then (.removed, false)
    else ((keep t.disableBl).after [.ack t.addr], false)
  | .TS_COMPLETED => ((keep t).after [.ack t.addr], false)
  | _ => (.keep t, false)

variable (t : SipTrans) (reply : TransReply)

def inviteErrorReply : Effect × Bool :=
  if reply.code = 503 ∧ (t.state = .TS_CALLING ∨ t.state = .TS_PROCEEDING) then
    if reply.localSocket.isSome then
      let n := tryNextIp net addr t true
      let r := inviteError n.tr reply n.ok
      (n.andThen r.1, r.2)
    else
      let n := tryNextIp net addr t false
      let r := inviteError n.tr reply false
      if n.ok then (n.andThen (.keep n.tr), false) else (n.andThen r.1, r.2)
  else inviteError t reply false

/-- A positive final reply to an INVITE. -/
def invitePositive : Effect × Bool :=
  match t.state with
  | .TS_CALLING | .TS_PROCEEDING =>
    let t := ((t.setState .TS_TERMINATED_200).resetAllTimers).resetTimer .STIMER_L
    (.keep { t with toTag := if t.toTag = [] ∧ reply.toTag ≠ [] then reply.toTag else t.toTag },
      true)
  | .TS_TERMINATED_200 =>
    if reply.toTag ≠ t.toTag then (.keep t, false)
    else ((keep t).after (if t.retrBuf then [.retransmit t.addr] else []), false)
  | .TS_ABANDONED | .TS_TERMINATED => (.keep t.disableBl, false)
  | _ => (.keep t, false)

/-- A final reply to another request, after the failover. -/
def nonInviteFinal : Effect × Bool :=
  match t.state with
  | .TS_TRYING | .TS_CALLING | .TS_PROCEEDING =>
    let t := (((t.setState .TS_COMPLETED).clearTimer .STIMER_E).clearTimer .STIMER_M).clearTimer
      .STIMER_F
    let e : Effect :=
      match reply.localSocket with
      | some sock => if !sock.reliable then .keep (t.resetTimer .STIMER_K) else .removed
      | none => .removed
    (e, t.msg.method ≠ .CANCEL)
  | .TS_COMPLETED => (.keep t, false)
  | .TS_ABANDONED | .TS_TERMINATED =>
    if reply.localSocket.isNone then
      (if reply.code = 500 ∨ reply.code = 503 then .removed else .keep t, false)
    else (.keep t.disableBl, false)
  | _ => (.keep t, false)

def nonInviteFinalReply : Effect × Bool :=
  if reply.code = 503 then
    let n := tryNextIp net addr t false
    let r := nonInviteFinal n.tr reply
    if n.ok then (n.andThen (.keep n.tr), false) else (n.andThen r.1, r.2)
  else nonInviteFinal t reply

/-- What a reply does, and whether it is passed on. -/
def updateUacReply : Effect × Bool :=
  if reply.code < 200 then provisionalReply t
  else if t.msg.method = .INVITE then
    if 300 ≤ reply.code then inviteErrorReply net addr t reply else invitePositive t reply
  else nonInviteFinalReply net addr t reply

/-- `process_rcvd_msg`, after `update_uac_reply`. -/
def passReply (r : Effect × Bool) : Effect :=
  { r.1 with log := r.1.log ++ if r.2 then [.reply t.request t.dialogId reply.code] else [] }

/-! ## CANCEL -/

/-- The new transaction of `update_uac_request`, for a request that is no ACK. -/
def updateUacRequest (junk : TransFlags) (msg : TransMsg) : SipTrans :=
  let arm (t : SipTrans) (retr deadline : TimerType) : SipTrans :=
    (if !msg.localSocket.reliable then t.resetTimer retr else t).resetTimer deadline
  let t := newTrans addr junk msg .TT_UAC
  if msg.method = .INVITE then arm t .STIMER_A .STIMER_B else arm t .STIMER_E .STIMER_F

/-- The CANCEL for a request. -/
def TransMsg.cancelMsg (req : TransMsg) : TransMsg :=
  { req with method := .CANCEL, methodStr := "CANCEL".toList, cseqMethodStr := "CANCEL".toList }

/-- What comes from outside while a CANCEL is sent. -/
structure CancelEnv where
  /-- The CANCEL can be parsed. -/
  generated : Bool
  sent : Bool
  /-- What the memory of a new transaction holds as its flags. -/
  junk : TransFlags

/-- `cancel`, once it has found the transaction. -/
def cancelTrans (env : CancelEnv) (addr : ℕ) (t : SipTrans) : Effect :=
  if t.canceled then .keep t
  else if t.msg.method ≠ .INVITE then .keep t
  else
    match t.state with
    | .TS_CALLING =>
      (keep ((((t.clearTimer .STIMER_A).clearTimer .STIMER_M).disableBl).setState
        .TS_ABANDONED)).after [.reply t.request t.dialogId 487]
    | .TS_PROCEEDING | .TS_ABANDONED =>
      if !env.generated || !env.sent then .keep t
      else
        { keep { t with canceled := true } with
          added := [updateUacRequest addr env.junk t.msg.cancelMsg]
          log := [.request addr t.msg.cancelMsg] }
    | _ => .keep t

/-- What a CANCEL does to the transaction. -/
theorem cancelTrans_cases (env : CancelEnv) (addr : ℕ) (t : SipTrans) :
    cancelTrans env addr t = .keep t ∨
      t.state = .TS_CALLING ∧ cancelTrans env addr t =
        (keep ((((t.clearTimer .STIMER_A).clearTimer .STIMER_M).disableBl).setState
          .TS_ABANDONED)).after [.reply t.request t.dialogId 487] ∨
      cancelTrans env addr t =
        { keep { t with canceled := true } with
          added := [updateUacRequest addr env.junk t.msg.cancelMsg]
          log := [.request addr t.msg.cancelMsg] } := by
  unfold cancelTrans
  split
  · exact .inl rfl
  split
  · exact .inl rfl
  split
  · exact .inr (.inl ⟨‹_›, rfl⟩)
  · split_ifs
    · exact .inl rfl
    · exact .inr (.inr rfl)
  · split_ifs
    · exact .inl rfl
    · exact .inr (.inr rfl)
  · exact .inl rfl

/-- The transaction `cancel` works on. -/
def cancelTarget (elmts : List SipTrans) (addr : ℕ) (dialogId : Str) (invCseq : ℕ) :
    Option SipTrans :=
  match elmts.find? fun t => t.addr == addr && t.state ≠ .TS_ABANDONED with
  | some t => some t
  | none => if dialogId ≠ [] then findUacTrans elmts dialogId invCseq else none

/-! ## Timers -/

/-- The end of a deadline for an abandoned transaction. -/
def abandonedTimeout : Effect :=
  if tr.flags.disableBl then .removed else .keep (tr.resetTimer .STIMER_BL)

/-- The cases `STIMER_E` and `STIMER_G`. -/
def retransmitTimer (timer : TransTimer) : Effect :=
  (keep (tr.repeatTimer timer.type (timer.n + 1))).after
    (if tr.type = .TT_UAS then if tr.retrBuf then [.retransmit tr.addr] else []
    else [.resend tr.addr tr.msg])

/-- The case `STIMER_H`. -/
def timerH : Effect :=
  let removed := removed
  if tr.type = .TT_UAS then
    match tr.state with
    | .TS_PROCEEDING_REL => (keep (tr.clearTimer .STIMER_H)).after [.replyTimeout tr.addr]
    | .TS_TERMINATED_200 | .TS_COMPLETED => removed.after [.replyTimeout tr.addr]
    | _ => removed
  else removed

/-- `timer_expired`, for a timer of the transaction. -/
def timerExpired (timer : TransTimer) : Effect :=
  match timer.type with
  | .STIMER_A => (keep (tr.repeatTimer .STIMER_A (timer.n + 1))).after [.resend tr.addr tr.msg]
  | .STIMER_B =>
    let tr := tr.clearTimer .STIMER_B
    match tr.state with
    | .TS_CALLING => timeout tr
    | .TS_ABANDONED => abandonedTimeout tr
    | _ => .removed
  | .STIMER_C => { keep (tr.clearTimer .STIMER_C) with calls := [.cancelTimeout tr.addr] }
  | .STIMER_F =>
    let tr := tr.clearTimer .STIMER_F
    match tr.state with
    | .TS_TRYING | .TS_PROCEEDING => timeout tr
    | .TS_ABANDONED => abandonedTimeout tr
    | _ => .removed
  | .STIMER_H => timerH tr
  | .STIMER_D | .STIMER_K | .STIMER_J | .STIMER_I | .STIMER_L => .removed
  | .STIMER_E | .STIMER_G => retransmitTimer tr timer
  | .STIMER_M =>
    let n := tryNextIp net addr tr true
    n.andThen (.keep (if n.ok then (n.tr.clearTimer .STIMER_A).setState .TS_ABANDONED else n.tr))
  | .STIMER_BL => .removed

end Sems
